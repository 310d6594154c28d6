import Retrace.Proofs.Json.RoundTrip
import Retrace.Proofs.Recording.Bounds
import Retrace.Recording.Written

/-! A recording that has been read is read again from the text it is written as: field by field, an
event finds in its own object what it was written from. -/
namespace Retrace
open Json (Value Members Cause Fault Node Key)
open Json.Members (keys AtMostOnce)

/-- The doubles of an action: the sides of a viewport, and the numbers in the options of a cookie. -/
inductive Action.HasDouble (x : Binary64) : Action → Prop
  | width {height : Option Binary64} : HasDouble x (.viewport (some ⟨some x, height⟩))
  | height {width : Option Binary64} : HasDouble x (.viewport (some ⟨width, some x⟩))
  | option {cookies : List CookieEntry} {cookie : CookieEntry} {m : String × Value}
    (hc : cookie ∈ cookies) (hm : m ∈ cookie.options) (h : m.2.HasDouble x) :
    HasDouble x (.cookie (some cookies))

@[simp] lemma Field.text_ofText? (s : Option String) : text (.ofText? s) = s := by
  cases s <;> rfl

lemma Field.number_numberValue {x : Option Binary64} (h : ∀ y, x = some y → y.isFinite) :
    number (numberValue x) = x := by
  cases x with
  | none => rfl
  | some y => simp [numberValue, h y rfl, number, Json.Number.toDouble]

section Entries

lemma ViewportSize.ofValue?_toJson {width height : Option Binary64}
    (hwidth : ∀ x, width = some x → x.isFinite) (hheight : ∀ x, height = some x → x.isFinite) :
    ofValue? (toJson ⟨width, height⟩) = .ok (some ⟨width, height⟩) := by
  rw [toJson, ofValue?, ownMembers_eq (.of_nodup (by simp) _)]
  simp [bind, Except.bind, pure, Except.pure, List.lookup_cons, Field.number_numberValue hwidth,
    Field.number_numberValue hheight]

lemma StorageEntry.ofValue_toJson (entry : StorageEntry) : ofValue entry.toJson = .ok entry := by
  rw [toJson, ofValue, ownMembers_eq (.of_nodup (by simp) _)]
  simp [bind, Except.bind, pure, Except.pure, Field.textAt, List.lookup_cons]

lemma CookieEntry.ofValue_toJson {cookie : CookieEntry} {depth : Nat} (h : cookie.Settled depth) :
    ofValue cookie.toJson = .ok cookie := by
  obtain ⟨name, value, options⟩ := cookie
  have hnodup : (keys (("name", .ofText? name) :: ("value", .ofText? value) :: options)).Nodup := by
    simp [h.nodup, h.name_not_mem, h.value_not_mem]
  have hothers : options.filter (fun m => m.1 != "name" && m.1 != "value") = options := by
    apply List.filter_eq_self.mpr
    intro m hm
    have hname : m.1 ≠ "name" := fun he => h.name_not_mem (List.mem_map.mpr ⟨m, hm, he⟩)
    have hvalue : m.1 ≠ "value" := fun he => h.value_not_mem (List.mem_map.mpr ⟨m, hm, he⟩)
    simp [hname, hvalue]
  have hmerged : Json.Members.merge (Value.mergedMembers options) = options := by
    rw [Value.mergedMembers_of_fixed fun m hm => (h.distinct m hm).merged_eq,
      Json.Members.merge_of_nodup h.nodup]
  rw [toJson, ofValue, ownMembers_eq (.of_nodup hnodup _)]
  simp [bind, Except.bind, pure, Except.pure, Field.textAt, List.lookup_cons, hothers, hmerged]

lemma mapM_map_eq_ok {ε α β : Type} {write : β → α} {read : α → Except ε β} {xs : List β}
    (h : ∀ x ∈ xs, read (write x) = .ok x) : (xs.map write).mapM read = .ok xs := by
  rw [mapM_eq_ok, List.forall₂_map_left_iff]
  exact List.forall₂_same.mpr h

end Entries

namespace Action

lemma keys_fieldsToJson (action : Action) : keys action.fieldsToJson = action.kind.fields := by
  cases action <;> rfl

lemma Kind.nodup_fields (kind : Kind) : kind.fields.Nodup := by
  cases kind <;> decide

lemma Kind.ofName_word (kind : Kind) : ofName (kind.name?.getD "Unknown") = kind := by
  cases kind <;> decide

/-- The doubles of an action come back. -/
abbrev DoublesRead (action : Action) : Prop := ∀ x, action.HasDouble x → x.isFinite ∧ x.ReadsBack

lemma ofFields_fieldsToJson {action : Action} {depth : Nat} (h : action.Settled depth)
    (hdouble : action.DoublesRead) :
    ofFields action.kind (action.fieldsToJson.lookup ·) = .ok action := by
  cases action with
  | viewport size =>
    cases size with
    | none => rfl
    | some size =>
      obtain ⟨width, height⟩ := size
      have hwidth : ∀ x, width = some x → x.isFinite := by
        rintro x rfl
        exact (hdouble x .width).1
      have hheight : ∀ x, height = some x → x.isFinite := by
        rintro x rfl
        exact (hdouble x .height).1
      simp [ofFields, kind, fieldsToJson, ViewportSize.ofValue?_toJson hwidth hheight]
  | cookie cookies =>
    cases cookies with
    | none => rfl
    | some list =>
      have hread := mapM_map_eq_ok fun cookie hc => CookieEntry.ofValue_toJson (h list rfl cookie hc)
      simp [ofFields, kind, fieldsToJson, CookieEntry.listOfValue?, hread]
  | storage entries =>
    cases entries with
    | none => rfl
    | some list =>
      have hread := mapM_map_eq_ok fun entry (_ : entry ∈ list) => StorageEntry.ofValue_toJson entry
      simp [ofFields, kind, fieldsToJson, StorageEntry.listOfValue?, hread]
  | keydown selector value keyCode =>
    have hcode : Field.whole (keyCode.elim .null wholeValue) = keyCode := by cases keyCode <;> rfl
    simp [ofFields, kind, fieldsToJson, List.lookup_cons, hcode]
  | _ => simp [ofFields, kind, fieldsToJson, List.lookup_cons]

end Action

namespace Event

/-- The members that tell the frame of an event. -/
def frameMembers (event : Event) : Members :=
  (event.frameId.elim [] fun id => [("frameId", wholeValue id)])
    ++ (event.frameUrl.elim [] fun url => [("frameUrl", .string url)])

/-- The members of the object that an event is written as. -/
def members (event : Event) : Members :=
  ("action", .string (event.action.name?.getD "Unknown")) ::
    (event.action.fieldsToJson ++ event.frameMembers)

lemma toJson_eq (event : Event) : event.toJson = .object event.members := by
  simp [toJson, members, frameMembers]

lemma lookup_frameMembers (event : Event) :
    event.frameMembers.lookup "frameId" = event.frameId.map wholeValue ∧
      event.frameMembers.lookup "frameUrl" = event.frameUrl.map .string := by
  obtain ⟨action, id, url⟩ := event
  cases id <;> cases url <;> simp [frameMembers, List.lookup_cons]

lemma mem_frameMembers {event : Event} {m : String × Value} (h : m ∈ event.frameMembers) :
    (∃ id, event.frameId = some id ∧ m = ("frameId", wholeValue id)) ∨
      ∃ url, event.frameUrl = some url ∧ m = ("frameUrl", .string url) := by
  obtain ⟨action, id, url⟩ := event
  cases id <;> cases url <;> simp_all [frameMembers]

lemma nodup_frameMembers (event : Event) : (keys event.frameMembers).Nodup := by
  obtain ⟨action, id, url⟩ := event
  cases id <;> cases url <;> simp [frameMembers]

lemma mem_keys_frameMembers {event : Event} {key : String} (h : key ∈ keys event.frameMembers) :
    key = "frameId" ∨ key = "frameUrl" := by
  obtain ⟨m, hm, rfl⟩ := List.mem_map.mp h
  rcases mem_frameMembers hm with ⟨id, -, rfl⟩ | ⟨url, -, rfl⟩
  · exact .inl rfl
  · exact .inr rfl

lemma nodup_members (event : Event) : (keys event.members).Nodup := by
  obtain ⟨hid, hurl⟩ := event.action.kind.frame_not_mem_fields
  rw [members, Json.Members.keys_cons, Json.Members.keys_append, Action.keys_fieldsToJson]
  refine List.nodup_cons.mpr ⟨fun haction => ?_,
    List.nodup_append.mpr ⟨event.action.kind.nodup_fields, event.nodup_frameMembers, ?_⟩⟩
  · rcases List.mem_append.mp haction with haction | haction
    · exact event.action.kind.action_not_mem_fields haction
    · exact absurd (mem_keys_frameMembers haction) (by simp)
  · rintro key hkey _ hkey' rfl
    rcases mem_keys_frameMembers hkey' with rfl | rfl
    · exact hid hkey
    · exact hurl hkey

lemma lookup_field {event : Event} {key : String} (h : key ∈ event.action.kind.fields) :
    event.members.lookup key = event.action.fieldsToJson.lookup key := by
  have haction : key ≠ "action" := fun he => event.action.kind.action_not_mem_fields (he ▸ h)
  cases hv : event.action.fieldsToJson.lookup key with
  | none =>
    rw [Json.Members.lookup_eq_none, Action.keys_fieldsToJson] at hv
    exact absurd h hv
  | some v => simp [members, List.lookup_cons, beq_false_of_ne haction, List.lookup_append, hv]

lemma lookup_frame {event : Event} {key : String} (haction : key ≠ "action")
    (h : key ∉ event.action.kind.fields) :
    event.members.lookup key = event.frameMembers.lookup key := by
  have hnone : event.action.fieldsToJson.lookup key = none := by
    rwa [Json.Members.lookup_eq_none, Action.keys_fieldsToJson]
  simp [members, List.lookup_cons, beq_false_of_ne haction, List.lookup_append, hnone]

lemma ofFields_members {event : Event} {depth : Nat} (h : event.Settled depth)
    (hdouble : event.action.DoublesRead) : ofFields (event.members.lookup ·) = .ok event := by
  have haction : Action.ofFields event.action.kind (event.members.lookup ·) = .ok event.action := by
    rw [← Action.ofFields_fieldsToJson h.action hdouble]
    exact Action.ofFields_congr fun key hkey => lookup_field hkey
  obtain ⟨hid, hurl⟩ := event.action.kind.frame_not_mem_fields
  have hkind : Action.Kind.ofValue (.string (event.action.name?.getD "Unknown")) =
      .ok event.action.kind := congrArg Except.ok event.action.kind.ofName_word
  have hlookup : event.members.lookup "action" =
      some (.string (event.action.name?.getD "Unknown")) := List.lookup_cons_self
  rw [ofFields]
  simp only [hlookup, hkind, haction, bind, Except.bind, pure, Except.pure]
  rw [lookup_frame (by decide) hid, lookup_frame (by decide) hurl, event.lookup_frameMembers.1,
    event.lookup_frameMembers.2]
  obtain ⟨action, id, url⟩ := event
  cases id <;> cases url <;> rfl

theorem ofNode_toJson {event : Event} {node : Node} {depth : Nat} (h : event.Settled depth)
    (hdouble : event.action.DoublesRead) (hnode : node.value = .ok event.toJson) :
    ofNode node = .ok event := by
  rw [toJson_eq] at hnode
  obtain ⟨start, nodes, stop, rfl, hnodes⟩ := Json.Node.value_eq_object hnode
  rw [ofNode_object hnodes (.of_nodup event.nodup_members), ofFields_members h hdouble]
  rfl

end Event

section Bounds
variable {depth : Nat} {x : Binary64}

lemma within_null : Value.null.Within depth := .scalar trivial

lemma within_ofText? (s : Option String) : (Value.ofText? s).Within depth := by
  cases s <;> exact .scalar trivial

lemma within_numberValue (y : Option Binary64) : (numberValue y).Within depth := by
  cases y with
  | none => exact within_null
  | some y =>
    simp only [numberValue, Option.elim_some]
    split_ifs with hfinite
    · exact .scalar hfinite
    · exact within_null

lemma within_wholeValue {n : Nat} (h : n < twoTo 64) : (wholeValue n).Within depth :=
  .scalar ⟨by omega, Int.ofNat_lt.mpr h⟩

lemma CookieEntry.Settled.within_toJson {cookie : CookieEntry} (h : cookie.Settled depth) :
    cookie.toJson.Within (depth + 1) := by
  apply Value.Within.object
  intro m hm
  rcases List.mem_cons.mp hm with rfl | hm
  · exact within_ofText? cookie.name
  · rcases List.mem_cons.mp hm with rfl | hm
    · exact within_ofText? cookie.value
    · exact h.within m hm

lemma Action.within_fieldsToJson {action : Action} (h : action.Settled depth) :
    ∀ m ∈ action.fieldsToJson, m.2.Within (depth + 2) := by
  cases action with
  | keydown selector value keyCode =>
    have hcode : (keyCode.elim .null wholeValue).Within (depth + 2) := by
      cases keyCode with
      | none => exact within_null
      | some n => exact within_wholeValue (h n rfl)
    simp [fieldsToJson, within_ofText?, hcode]
  | viewport size =>
    cases size with
    | none => simp [fieldsToJson, within_null]
    | some size =>
      have hsize : size.toJson.Within (depth + 2) := .object (by simp [within_numberValue])
      simpa [fieldsToJson] using hsize
  | cookie cookies =>
    cases cookies with
    | none => simp [fieldsToJson, within_null]
    | some list =>
      have hlist : (Value.array (list.map CookieEntry.toJson)).Within (depth + 2) :=
        .array (List.forall_mem_map.mpr fun cookie hc => (h list rfl cookie hc).within_toJson)
      simpa [fieldsToJson] using hlist
  | storage entries =>
    cases entries with
    | none => simp [fieldsToJson, within_null]
    | some list =>
      have hlist : (Value.array (list.map StorageEntry.toJson)).Within (depth + 2) :=
        .array (List.forall_mem_map.mpr fun entry _ => .object (by simp [within_ofText?]))
      simpa [fieldsToJson] using hlist
  | _ => simp [fieldsToJson, within_ofText?]

lemma Event.Settled.within_toJson {event : Event} (h : event.Settled depth) :
    event.toJson.Within (depth + 3) := by
  rw [toJson_eq]
  apply Value.Within.object
  intro m hm
  rcases List.mem_cons.mp hm with rfl | hm
  · exact .scalar trivial
  · rcases List.mem_append.mp hm with hm | hm
    · exact Action.within_fieldsToJson h.action m hm
    · rcases mem_frameMembers hm with ⟨id, hid, rfl⟩ | ⟨url, -, rfl⟩
      · exact within_wholeValue (h.frameId id hid)
      · exact .scalar trivial

lemma not_hasDouble_ofText? (s : Option String) : ¬ (Value.ofText? s).HasDouble x := by
  cases s <;> rintro ⟨⟩

lemma not_hasDouble_wholeValue (n : Nat) : ¬ (wholeValue n).HasDouble x := by
  rintro ⟨⟩

lemma eq_of_hasDouble_numberValue {y : Option Binary64} (h : (numberValue y).HasDouble x) :
    y = some x := by
  cases y with
  | none => cases h
  | some y =>
    simp only [numberValue, Option.elim_some] at h
    split_ifs at h
    · cases h
      rfl
    · cases h

lemma Action.hasDouble_of_fieldsToJson {action : Action} {m : String × Value}
    (hm : m ∈ action.fieldsToJson) (h : m.2.HasDouble x) : action.HasDouble x := by
  cases action with
  | viewport size =>
    obtain rfl := List.mem_singleton.mp hm
    cases size with
    | none => cases h
    | some size =>
      obtain ⟨width, height⟩ := size
      obtain ⟨m, hside, h⟩ := Value.hasDouble_object.mp h
      rcases List.mem_cons.mp hside with rfl | hside
      · obtain rfl := eq_of_hasDouble_numberValue h
        exact .width
      · obtain rfl := List.mem_singleton.mp hside
        obtain rfl := eq_of_hasDouble_numberValue h
        exact .height
  | cookie cookies =>
    obtain rfl := List.mem_singleton.mp hm
    cases cookies with
    | none => cases h
    | some list =>
      obtain ⟨item, hitem, h⟩ := Value.hasDouble_array.mp h
      obtain ⟨cookie, hc, rfl⟩ := List.mem_map.mp hitem
      obtain ⟨m, hmember, h⟩ := Value.hasDouble_object.mp h
      rcases List.mem_cons.mp hmember with rfl | hmember
      · exact absurd h (not_hasDouble_ofText? cookie.name)
      · rcases List.mem_cons.mp hmember with rfl | hmember
        · exact absurd h (not_hasDouble_ofText? cookie.value)
        · exact .option hc hmember h
  | storage entries =>
    obtain rfl := List.mem_singleton.mp hm
    cases entries with
    | none => cases h
    | some list =>
      obtain ⟨item, hitem, h⟩ := Value.hasDouble_array.mp h
      obtain ⟨entry, he, rfl⟩ := List.mem_map.mp hitem
      obtain ⟨m, hmember, h⟩ := Value.hasDouble_object.mp h
      simp only [List.mem_cons, List.not_mem_nil, or_false] at hmember
      rcases hmember with rfl | rfl <;> exact absurd h (not_hasDouble_ofText? _)
  | keydown selector value keyCode =>
    simp only [fieldsToJson, List.mem_cons, List.not_mem_nil, or_false] at hm
    rcases hm with rfl | rfl | rfl
    · exact absurd h (not_hasDouble_ofText? selector)
    · exact absurd h (not_hasDouble_ofText? value)
    · cases keyCode with
      | none => cases h
      | some n => exact absurd h (not_hasDouble_wholeValue n)
  | change selector value tagName targetType =>
    simp only [fieldsToJson, List.mem_cons, List.not_mem_nil, or_false] at hm
    rcases hm with rfl | rfl | rfl | rfl <;> exact absurd h (not_hasDouble_ofText? _)
  | _ => simp_all [fieldsToJson, not_hasDouble_ofText?]

lemma Event.hasDouble_of_toJson {event : Event} (h : event.toJson.HasDouble x) :
    event.action.HasDouble x := by
  rw [toJson_eq] at h
  obtain ⟨m, hm, h⟩ := Value.hasDouble_object.mp h
  rcases List.mem_cons.mp hm with rfl | hm
  · cases h
  · rcases List.mem_append.mp hm with hm | hm
    · exact Action.hasDouble_of_fieldsToJson hm h
    · rcases mem_frameMembers hm with ⟨id, -, rfl⟩ | ⟨url, -, rfl⟩
      · exact absurd h (not_hasDouble_wholeValue id)
      · cases h

lemma Event.within_listToJson {events : List Event} (h : ∀ event ∈ events, event.Settled depth) :
    (Event.listToJson events).Within (depth + 4) :=
  .array (List.forall_mem_map.mpr fun event he => (h event he).within_toJson)

end Bounds

namespace Event

theorem readList_listToJson {events : List Event} (h : ∀ event ∈ events, event.Settled optionDepth)
    (hdouble : ∀ event ∈ events, event.action.DoublesRead) :
    readList (listToJson events).compact = .ok events := by
  obtain ⟨node, hnode, hdocument⟩ := Json.ofText_compact (within_listToJson h) fun x hx => by
    obtain ⟨item, hitem, hx⟩ := Value.hasDouble_array.mp hx
    obtain ⟨event, he, rfl⟩ := List.mem_map.mp hitem
    exact hdouble event he x (hasDouble_of_toJson hx)
  obtain ⟨start, nodes, stop, rfl, hnodes⟩ := Json.Node.value_eq_array hnode
  refine Json.readText_eq_ok.mpr ⟨by rw [hdocument], ?_⟩
  rw [hdocument]
  refine bind_eq_ok.mpr ⟨events, mapM_eq_ok.mpr ?_, rfl⟩
  rw [List.forall₂_map_right_iff] at hnodes
  apply forall₂_imp hnodes
  intro node event he hvalue
  exact ofNode_toJson (h event he) (hdouble event he) hvalue

/-- What has been read is read again from what it is written as, if its doubles are. -/
theorem readList_again {text : String} {events : List Event} (h : readList text = .ok events)
    (hdouble : ∀ event ∈ events, ∀ x, event.action.HasDouble x → x.isFinite ∧ x.ReadsBack) :
    readList (listToJson events).compact = .ok events :=
  readList_listToJson (settled_readList h) hdouble

end Event

/-- One half, which is written `0.5`. -/
def Binary64.half : Binary64 := .finite false ⟨twoTo 52, -53⟩

lemma Binary64.readsBack_half : half.ReadsBack := by
  have hwell : Numeral.WellFormed ⟨false, ['0'], some ['5'], none⟩ := by
    refine ⟨Numeral.isRun_zero, .inl rfl, ?_, by simp⟩
    rintro digits ⟨⟩
    exact ⟨by simp, by simp⟩
  have htext : NumberStyle.json.text half = "0.5" := by decide +kernel
  rw [Binary64.ReadsBack, htext]
  exact (Json.readValue_spelled hwell rfl).mpr (by decide +kernel)

namespace Event
open Binary64 (half readsBack_half)

/-- A viewport by its sides in order with its frame as a text, and a cookie with a key of no field
beside it. -/
def looseRecording : Value := .array [
  .object [("value", .array [.scalar (.number (.double half))]), ("action", .string "viewport*"),
    ("frameId", .string " 12 ")],
  .object [("cookies", .array [.object [("secure", .bool true), ("name", .string "a")]]),
    ("action", .string "cookie"), ("x", .null)]]

def looseEvents : List Event := [
  ⟨.viewport (some ⟨some half, none⟩), some 12, none⟩,
  ⟨.cookie (some [⟨some "a", none, [("secure", .bool true)]⟩]), none, none⟩]

lemma readList_looseRecording : readList looseRecording.compact = .ok looseEvents := by
  have hin : looseRecording.Within Json.Outline.maxDepth := by
    simp [looseRecording, Value.null, Value.bool, Value.string, Json.Outline.maxDepth,
      Json.Scalar.InRange, Json.Number.InRange, half, Binary64.isFinite]
  have hread := Json.readText_compact hin fun x hx => by
    obtain rfl : half = x := by
      simpa [looseRecording, Value.null, Value.bool, Value.string] using hx
    exact ⟨rfl, readsBack_half⟩
  have hkeys : looseRecording.KeysDistinct := by
    simp [looseRecording, Value.null, Value.bool, Value.string]
  exact (readList_eq_ok hread hkeys).mpr ⟨_, rfl, .cons ⟨_, rfl, rfl⟩ (.cons ⟨_, rfl, rfl⟩ .nil)⟩

theorem readList_again_of_loose_recording : looseRecording.compact =
      "[\x7b\"value\":[0.5],\"action\":\"viewport*\",\"frameId\":\" 12 \"\x7d," ++
      "\x7b\"cookies\":[\x7b\"secure\":true,\"name\":\"a\"\x7d]," ++
      "\"action\":\"cookie\",\"x\":null\x7d]" ∧
    readList looseRecording.compact = .ok looseEvents ∧
    readList (listToJson looseEvents).compact = .ok looseEvents := by
  refine ⟨by decide +kernel, readList_looseRecording, readList_again readList_looseRecording ?_⟩
  intro event he x hx
  simp only [looseEvents, List.mem_cons, List.not_mem_nil, or_false] at he
  rcases he with rfl | rfl
  · cases hx
    exact ⟨rfl, readsBack_half⟩
  · cases hx with
    | option hc hm h =>
      obtain rfl := List.mem_singleton.mp hc
      obtain rfl := List.mem_singleton.mp hm
      cases h

end Event
end Retrace
