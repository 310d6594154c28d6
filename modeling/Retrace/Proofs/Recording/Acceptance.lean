import Retrace.Proofs.Json.RoundTrip
import Retrace.Proofs.Recording.Fields

/-! Which texts are recordings. A recording is refused for the shape of its containers and for an
event that names no kind, and for nothing else: a loose field takes any value. -/
namespace Retrace
open Json (Value Members Cause Fault Node Key)
open Json.Members (keys AtMostOnce)

namespace Json.Value

def IsObject (v : Value) : Prop := ∃ members, v = .object members

/-- An object, or an array of at most two fields in their order. -/
def IsPair (v : Value) : Prop := v.IsObject ∨ ∃ items, v = .array items ∧ items.length ≤ 2

end Json.Value

namespace Action.Kind

/-- A value that names a kind: any word, or a number without a sign that fits 64 bits. -/
inductive Named : Value → Kind → Prop
  | word (name : String) : Named (.string name) (.ofName name)
  | index (n : Nat) (h : n < twoTo 64) : Named (.scalar (.number (.whole n))) (.ofIndex n)

/-- A field that is left out, or written as missing. -/
def Missing (field : Option Value) : Prop := field = none ∨ field = some .null

/-- What a kind asks of its fields. Only containers have a shape to keep to. -/
def Fits : Kind → (String → Option Value) → Prop
  | .viewport, field => Missing (field "value") ∨ ∃ v, field "value" = some v ∧ v.IsPair
  | .cookie, field => Missing (field "cookies") ∨
    ∃ items, field "cookies" = some (.array items) ∧ ∀ item ∈ items, item.IsObject
  | .storage, field => Missing (field "value") ∨
    ∃ items, field "value" = some (.array items) ∧ ∀ item ∈ items, item.IsPair
  | _, _ => True

end Action.Kind

/-- The shape of an event: an object that names a kind and has what the kind asks for. -/
def Event.Shaped (v : Value) : Prop :=
  ∃ members action kind, v = .object members ∧ members.lookup "action" = some action ∧
    Action.Kind.Named action kind ∧ kind.Fits (members.lookup ·)

section Containers

lemma ownMembers_of_nodup {members : Members} (h : (keys members).Nodup) (names : List String) :
    ∃ own, ownMembers names members = .ok own :=
  ⟨_, ownMembers_eq (.of_nodup h names)⟩

lemma ViewportSize.exists_ofValue? {v : Value} (h : v.KeysDistinct) :
    (∃ size, ViewportSize.ofValue? v = .ok size) ↔ v = .null ∨ v.IsPair := by
  cases v with
  | scalar s =>
    cases s <;> simp [ofValue?, Value.null, Value.IsPair, Value.IsObject]
  | array items =>
    by_cases hlen : 2 < items.length
    · simp [ofValue?, hlen, Value.null, Value.IsPair, Value.IsObject]
    · simp [ofValue?, hlen, Value.null, Value.IsPair, Value.IsObject]
      omega
  | object members =>
    obtain ⟨own, hown⟩ := ownMembers_of_nodup (Value.keysDistinct_object.mp h).1 ["width", "height"]
    simp [ofValue?, hown, bind, Except.bind, pure, Except.pure, Value.IsPair, Value.IsObject]

lemma CookieEntry.exists_ofValue {v : Value} (h : v.KeysDistinct) :
    (∃ cookie, CookieEntry.ofValue v = .ok cookie) ↔ v.IsObject := by
  cases v with
  | object members =>
    obtain ⟨own, hown⟩ := ownMembers_of_nodup (Value.keysDistinct_object.mp h).1 ["name", "value"]
    simp [ofValue, hown, bind, Except.bind, pure, Except.pure, Value.IsObject]
  | _ => simp [ofValue, Value.IsObject]

lemma StorageEntry.exists_ofValue {v : Value} (h : v.KeysDistinct) :
    (∃ entry, StorageEntry.ofValue v = .ok entry) ↔ v.IsPair := by
  cases v with
  | scalar s => simp [ofValue, Value.IsPair, Value.IsObject]
  | array items =>
    by_cases hlen : 2 < items.length
    · simp [ofValue, hlen, Value.IsPair, Value.IsObject]
    · simp [ofValue, hlen, Value.IsPair, Value.IsObject]
      omega
  | object members =>
    obtain ⟨own, hown⟩ := ownMembers_of_nodup (Value.keysDistinct_object.mp h).1 ["name", "value"]
    simp [ofValue, hown, bind, Except.bind, pure, Except.pure, Value.IsPair, Value.IsObject]

lemma exists_some_mapM {α : Type} {read : Value → Except Cause α} {items : List Value} :
    (∃ list, some <$> items.mapM read = .ok list) ↔ ∀ item ∈ items, ∃ a, read item = .ok a := by
  rw [← exists_mapM_eq_ok]
  constructor
  · rintro ⟨list, h⟩
    obtain ⟨as, has, -⟩ := map_eq_ok.mp h
    exact ⟨as, has⟩
  · rintro ⟨as, has⟩
    exact ⟨some as, map_eq_ok.mpr ⟨as, has, rfl⟩⟩

lemma CookieEntry.exists_listOfValue? {v : Value} (h : v.KeysDistinct) :
    (∃ list, CookieEntry.listOfValue? v = .ok list) ↔
      v = .null ∨ ∃ items, v = .array items ∧ ∀ item ∈ items, item.IsObject := by
  cases h with
  | scalar s => cases s <;> simp [listOfValue?, Value.null]
  | @array items h =>
    rw [listOfValue?, exists_some_mapM]
    simp only [Value.null, Value.array.injEq, reduceCtorEq, false_or, exists_eq_left']
    exact forall₂_congr fun item hitem => exists_ofValue (h item hitem)
  | object hkeys h => simp [listOfValue?, Value.null]

lemma StorageEntry.exists_listOfValue? {v : Value} (h : v.KeysDistinct) :
    (∃ list, StorageEntry.listOfValue? v = .ok list) ↔
      v = .null ∨ ∃ items, v = .array items ∧ ∀ item ∈ items, item.IsPair := by
  cases h with
  | scalar s => cases s <;> simp [listOfValue?, Value.null]
  | @array items h =>
    rw [listOfValue?, exists_some_mapM]
    simp only [Value.null, Value.array.injEq, reduceCtorEq, false_or, exists_eq_left']
    exact forall₂_congr fun item hitem => exists_ofValue (h item hitem)
  | object hkeys h => simp [listOfValue?, Value.null]

end Containers

namespace Action

lemma Kind.ofValue_eq_ok {v : Value} {kind : Kind} {depth : Nat} (h : v.Within depth) :
    Kind.ofValue v = .ok kind ↔ Kind.Named v kind := by
  constructor
  · intro hv
    unfold Kind.ofValue at hv
    split at hv
    · exact Except.ok.inj hv ▸ .word _
    · rename_i n
      cases h with
      | scalar h => exact Except.ok.inj hv ▸ .index n (Int.ofNat_lt.mp h.2)
    · cases hv
  · rintro (⟨name⟩ | ⟨n, hn⟩)
    · rfl
    · rfl

lemma exists_container {α : Type} {read : Value → Except Cause (Option α)} {shape : Value → Prop}
    {field : Option Value} (make : Option α → Action)
    (hread : ∀ v, v = .null ∨ field = some v → ((∃ a, read v = .ok a) ↔ v = .null ∨ shape v)) :
    (∃ action, make <$> read (field.getD .null) = .ok action) ↔
      Kind.Missing field ∨ ∃ v, field = some v ∧ shape v := by
  have hmake : (∃ action, make <$> read (field.getD .null) = .ok action) ↔
      ∃ a, read (field.getD .null) = .ok a := by
    simp only [map_eq_ok]
    exact ⟨fun ⟨_, a, ha, _⟩ => ⟨a, ha⟩, fun ⟨a, ha⟩ => ⟨make a, a, ha, rfl⟩⟩
  rw [hmake]
  cases field with
  | none => simp [hread .null (.inl rfl), Kind.Missing]
  | some v => simp [hread v (.inr rfl), Kind.Missing]

theorem exists_ofFields {kind : Kind} {field : String → Option Value}
    (h : ∀ key v, field key = some v → v.KeysDistinct) :
    (∃ action, ofFields kind field = .ok action) ↔ kind.Fits field := by
  have hkeys {key : String} (v : Value) (hv : v = .null ∨ field key = some v) : v.KeysDistinct :=
    hv.elim (fun he => he ▸ .scalar _) (h key v)
  cases kind with
  | viewport =>
    exact exists_container viewport fun v hv => ViewportSize.exists_ofValue? (hkeys v hv)
  | cookie =>
    refine (exists_container cookie fun v hv =>
      CookieEntry.exists_listOfValue? (hkeys v hv)).trans ?_
    simp only [Kind.Fits]
    exact or_congr_right ⟨fun ⟨v, hv, items, he, hi⟩ => ⟨items, he ▸ hv, hi⟩,
      fun ⟨items, hv, hi⟩ => ⟨_, hv, items, rfl, hi⟩⟩
  | storage =>
    refine (exists_container storage fun v hv =>
      StorageEntry.exists_listOfValue? (hkeys v hv)).trans ?_
    simp only [Kind.Fits]
    exact or_congr_right ⟨fun ⟨v, hv, items, he, hi⟩ => ⟨items, he ▸ hv, hi⟩,
      fun ⟨items, hv, hi⟩ => ⟨_, hv, items, rfl, hi⟩⟩
  | _ => exact ⟨fun _ => trivial, fun _ => ⟨_, rfl⟩⟩

end Action

namespace Event

lemma exists_ofFields {field : String → Option Value} {depth : Nat}
    (hkeys : ∀ key v, field key = some v → v.KeysDistinct)
    (hin : ∀ key v, field key = some v → v.Within depth) :
    (∃ event, ofFields field = .ok event) ↔
      ∃ action kind, field "action" = some action ∧ Action.Kind.Named action kind ∧
        kind.Fits field := by
  unfold ofFields
  cases hvalue : field "action" with
  | none => simp
  | some value =>
    have hkind {kind : Action.Kind} :
        Action.Kind.ofValue value = .ok kind ↔ Action.Kind.Named value kind :=
      Action.Kind.ofValue_eq_ok (hin _ value hvalue)
    constructor
    · rintro ⟨event, h⟩
      obtain ⟨kind, hk, h⟩ := bind_eq_ok.mp h
      obtain ⟨action, ha, -⟩ := bind_eq_ok.mp h
      exact ⟨value, kind, rfl, hkind.mp hk, (Action.exists_ofFields hkeys).mp ⟨action, ha⟩⟩
    · rintro ⟨_, kind, he, hk, hfits⟩
      obtain rfl := Option.some.inj he
      obtain ⟨action, ha⟩ := (Action.exists_ofFields hkeys).mpr hfits
      exact ⟨_, bind_eq_ok.mpr ⟨kind, hkind.mpr hk, bind_eq_ok.mpr ⟨action, ha, rfl⟩⟩⟩

/-- Every value of the shape is read, and no other. -/
theorem exists_ofValue {v : Value} {depth : Nat} (hkeys : v.KeysDistinct) (hin : v.Within depth) :
    (∃ event, OfValue v event) ↔ Shaped v := by
  unfold OfValue Shaped
  cases v with
  | object members =>
    have hmembers := (Value.keysDistinct_object.mp hkeys).2
    cases hin with
    | object hin =>
      simpa using exists_ofFields (fun key v h => hmembers _ (Json.Members.mem_of_lookup h))
        (fun key v h => hin _ (Json.Members.mem_of_lookup h))
  | scalar s => simp
  | array items => simp

lemma exists_readList_iff {text : String} {value : Value}
    (hread : Json.readText Node.value text = .ok value) (hkeys : value.KeysDistinct) :
    (∃ events, readList text = .ok events) ↔
      ∃ items, value = .array items ∧ ∀ item ∈ items, Shaped item := by
  have hin : value.Within Json.Outline.maxDepth :=
    (Json.Document.root_within text.toList).value (Json.readText_eq_ok.mp hread).2
  simp only [readList_eq_ok hread hkeys]
  cases value with
  | array items =>
    simp only [Value.array.injEq, exists_eq_left']
    rw [exists_forall₂]
    refine forall₂_congr fun item hitem => ?_
    exact exists_ofValue (Value.keysDistinct_array.mp hkeys item hitem)
      (Value.within_array.mp hin item hitem)
  | scalar s => simp
  | object members => simp

/-- Recordings are lists of events in shape. The numbers that name a kind are written with digits alone. -/
theorem readList_succeeds_iff {text : String} {value : Value}
    (hread : Json.readText Node.value text = .ok value) (hkeys : value.KeysDistinct) :
    ((∃ events, readList text = .ok events) ↔
      ∃ items, value = .array items ∧ ∀ item ∈ items, Shaped item) ∧
    ∀ (numeral : Numeral) (n : Nat), Json.Numeral.value? numeral = some (.whole n) ↔
      numeral.negative = false ∧ numeral.fraction = none ∧ numeral.exponent = none ∧
        Numeral.digitsValue numeral.whole = n ∧ n < twoTo 64 :=
  ⟨exists_readList_iff hread hkeys, fun _ _ => Json.Numeral.value?_eq_whole_iff⟩

/-- A kind by its number, and a viewport by its sides in order. -/
def indexedRecording : Value := .array [.object [
  ("value", .array [.scalar (.number (.whole 800)), .null]),
  ("action", .scalar (.number (.whole 4))), ("frameId", .bool true)]]

theorem readList_succeeds_on_indexed_kind : indexedRecording.compact =
      "[\x7b\"value\":[800,null],\"action\":4,\"frameId\":true\x7d]" ∧
    Json.readText Node.value indexedRecording.compact = .ok indexedRecording ∧
    indexedRecording.KeysDistinct ∧
    ∃ events, readList indexedRecording.compact = .ok events := by
  have hin : indexedRecording.Within Json.Outline.maxDepth := by
    simp [indexedRecording, Value.null, Value.bool, Json.Outline.maxDepth, Json.Scalar.InRange,
      Json.Number.InRange, twoTo]
  have hread := Json.readText_compact hin (by simp [indexedRecording, Value.null, Value.bool])
  have hkeys : indexedRecording.KeysDistinct := by simp [indexedRecording, Value.null, Value.bool]
  refine ⟨rfl, hread, hkeys, (readList_succeeds_iff hread hkeys).1.mpr ⟨_, rfl, ?_⟩⟩
  intro item hitem
  obtain rfl := List.mem_singleton.mp hitem
  refine ⟨_, _, _, rfl, rfl, .index 4 (by decide), .inr ⟨_, rfl, ?_⟩⟩
  exact .inr ⟨_, rfl, by simp⟩

end Event
end Retrace
