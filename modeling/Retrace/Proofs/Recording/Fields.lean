import Retrace.Proofs.Json.Members
import Retrace.Proofs.Json.Node
import Retrace.Recording.Reading

/-! An event read by its fields. Where no key that matters occurs twice, an event is what its fields
hold, in whatever order the object lists them and whatever else it lists. -/
namespace Retrace
open Json (Value Members Cause Fault Node Key)
open Json.Members (keys AtMostOnce)

section OwnMembers
variable {names : List String} {members : Members}

lemma ownMembers_go_eq (seen : List String)
    (h : ∀ key ∈ names, (seen ++ keys members).count key ≤ 1) :
    ownMembers.go names seen members = .ok (members.filter fun m => names.contains m.1) := by
  induction members generalizing seen with
  | nil => rfl
  | cons m rest ih =>
    obtain ⟨k, v⟩ := m
    rw [ownMembers.go]
    split_ifs with hk hseen
    · have hcount := h k (by simpa using hk)
      have : 0 < seen.count k := List.count_pos_iff.mpr (by simpa using hseen)
      simp only [Json.Members.keys_cons, List.count_append, List.count_cons_self] at hcount
      omega
    · have hrest : ∀ key ∈ names, ((k :: seen) ++ keys rest).count key ≤ 1 := by
        intro key hkey
        have hperm : ((k :: seen) ++ keys rest).Perm (seen ++ k :: keys rest) := List.perm_middle.symm
        rw [hperm.count_eq]
        exact h key hkey
      rw [ih _ hrest, List.filter_cons, if_pos hk]
      rfl
    · have hrest : ∀ key ∈ names, (seen ++ keys rest).count key ≤ 1 := by
        intro key hkey
        have := h key hkey
        simp only [Json.Members.keys_cons, List.count_append, List.count_cons] at this ⊢
        omega
      rw [ih _ hrest, List.filter_cons, if_neg hk]

lemma ownMembers_eq (h : AtMostOnce names members) :
    ownMembers names members = .ok (members.filter fun m => names.contains m.1) :=
  ownMembers_go_eq [] h

lemma lookup_own {key : String} (h : key ∈ names) :
    (members.filter fun m => names.contains m.1).lookup key = members.lookup key :=
  Json.Members.lookup_filter (p := fun k => names.contains k) (by simpa using h) members

lemma textAt_own {key : String} (h : key ∈ names) :
    Field.textAt key (members.filter fun m => names.contains m.1) =
      (members.lookup key).bind Field.text := by
  rw [Field.textAt, lookup_own h]

end OwnMembers

namespace Action

/-- The names of the fields of a kind. -/
def Kind.fields : Kind → List String
  | .click => ["selector"]
  | .change => ["selector", "value", "tagName", "targetType"]
  | .keydown => ["selector", "value", "keyCode"]
  | .visit | .navigation => ["href"]
  | .viewport | .storage => ["value"]
  | .cookie => ["cookies"]
  | .unknown => []

/-- An action of a known kind from what its fields hold. -/
def ofFields (kind : Kind) (field : String → Option Value) : Except Cause Action :=
  let text (key : String) := (field key).bind Field.text
  match kind with
  | .click => .ok (click (text "selector"))
  | .change => .ok (change (text "selector") (text "value") (text "tagName") (text "targetType"))
  | .keydown =>
    .ok (keydown (text "selector") (text "value") ((field "keyCode").bind Field.whole))
  | .visit => .ok (visit (text "href"))
  | .viewport => viewport <$> ViewportSize.ofValue? ((field "value").getD .null)
  | .navigation => .ok (navigation (text "href"))
  | .cookie => cookie <$> CookieEntry.listOfValue? ((field "cookies").getD .null)
  | .storage => storage <$> StorageEntry.listOfValue? ((field "value").getD .null)
  | .unknown => .ok unknown

lemma ofFields_congr {kind : Kind} {field field' : String → Option Value}
    (h : ∀ key ∈ kind.fields, field key = field' key) : ofFields kind field = ofFields kind field' := by
  cases kind <;> simp only [Kind.fields, List.forall_mem_cons] at h <;> simp [ofFields, h]

lemma containerField_eq {α : Type} {name : String} {read : Value → Except Cause (Option α)}
    {members : Members} (h : AtMostOnce [name] members) :
    containerField name read members = read ((members.lookup name).getD .null) := by
  rw [containerField, ownMembers_eq h]
  cases read ((members.lookup name).getD .null) <;> rfl

theorem ofMembers_eq {kind : Kind} {members : Members} (h : AtMostOnce kind.fields members) :
    ofMembers kind members = ofFields kind (members.lookup ·) := by
  cases kind with
  | viewport | cookie | storage =>
    simp only [ofMembers, ofFields]
    rw [containerField_eq h]
  | unknown => rfl
  | _ =>
    simp only [Kind.fields] at h
    simp only [ofMembers, ofFields]
    rw [ownMembers_eq h]
    simp only [bind, Except.bind, pure, Except.pure, textAt_own, lookup_own, List.mem_cons, true_or,
      or_true]

lemma splitKind_eq {members : Members} (h : AtMostOnce ["action"] members) :
    splitKind members = match members.lookup "action" with
      | none => .error (.missingField "action")
      | some value => (Kind.ofValue value).map (·, members.filter (·.1 != "action")) := by
  rw [splitKind, Json.Members.filter_eq_of_count (h "action" List.mem_cons_self)]
  cases members.lookup "action" with
  | none => rfl
  | some value => cases Kind.ofValue value <;> rfl

lemma Kind.action_not_mem_fields (kind : Kind) : "action" ∉ kind.fields := by
  cases kind <;> simp [fields]

lemma Kind.frame_not_mem_fields (kind : Kind) :
    "frameId" ∉ kind.fields ∧ "frameUrl" ∉ kind.fields := by
  cases kind <;> simp [fields]

end Action

namespace Event

/-- Whether a member is kept until the event ends. -/
def isOther (m : String × Value) : Bool := m.1 != "frameId" && m.1 != "frameUrl"

/-- An event from what its fields hold. -/
def ofFields (field : String → Option Value) : Except Cause Event :=
  match field "action" with
  | none => .error (.missingField "action")
  | some value => do
    let kind ← Action.Kind.ofValue value
    let action ← Action.ofFields kind field
    return ⟨action, (field "frameId").bind Field.whole, (field "frameUrl").bind Field.text⟩

/-- Members in which no field of their event occurs twice. -/
structure FieldsOnce (members : Members) : Prop where
  event : AtMostOnce ["action", "frameId", "frameUrl"] members
  action : ∀ value kind, members.lookup "action" = some value → Action.Kind.ofValue value = .ok kind →
    AtMostOnce kind.fields members

lemma FieldsOnce.of_nodup {members : Members} (h : (keys members).Nodup) : FieldsOnce members :=
  ⟨.of_nodup h _, fun _ kind _ _ => .of_nodup h kind.fields⟩

lemma gather_eq {nodes : List (Key × Node)} {members : Members}
    (hv : Json.Node.MembersAre nodes members) (seen : Partial)
    (hid : (keys members).count "frameId" + seen.frameId.toList.length ≤ 1)
    (hurl : (keys members).count "frameUrl" + seen.frameUrl.toList.length ≤ 1) :
    gather seen nodes = .ok
      ⟨seen.frameId <|> (members.lookup "frameId").map Field.whole,
        seen.frameUrl <|> (members.lookup "frameUrl").map Field.text,
        (members.filter isOther).reverse ++ seen.others⟩ := by
  induction hv generalizing seen with
  | nil => simp [gather]
  | @cons node m nodes rest hm hrest ih =>
    obtain ⟨key, node⟩ := node
    obtain ⟨k, v⟩ := m
    obtain ⟨id, url, others⟩ := seen
    obtain ⟨rfl, hv⟩ := hm
    simp only [Json.Members.keys_cons, List.count_cons] at hid hurl
    rw [gather]
    split_ifs with h1 h2 h3 h4
    · -- A frame that was seen before does not come again.
      obtain ⟨x, rfl⟩ := Option.isSome_iff_exists.mp h2
      simp [h1] at hid
    · obtain rfl : id = none := by simpa using h2
      simp only [h1, beq_self_eq_true, if_true] at hid
      have hnone : rest.lookup "frameId" = none :=
        Json.Members.lookup_eq_none.mpr (List.count_eq_zero.mp (by simpa using hid))
      rw [hv]
      simp only [bind, Except.bind]
      rw [ih _ (by simpa using hid) (by simpa [h1] using hurl)]
      simp [h1, hnone, isOther, List.lookup_cons]
    · obtain ⟨x, rfl⟩ := Option.isSome_iff_exists.mp h4
      simp [h3] at hurl
    · obtain rfl : url = none := by simpa using h4
      simp only [h3, beq_self_eq_true, if_true] at hurl
      have hnone : rest.lookup "frameUrl" = none :=
        Json.Members.lookup_eq_none.mpr (List.count_eq_zero.mp (by simpa using hurl))
      rw [hv]
      simp only [bind, Except.bind]
      rw [ih _ (by simpa [h3] using hid) (by simpa using hurl)]
      simp [h3, hnone, isOther, List.lookup_cons]
    · rw [hv]
      simp only [bind, Except.bind]
      rw [ih _ (by simpa [h1] using hid) (by simpa [h3] using hurl)]
      have hother : isOther (key.name, v) := by simp [isOther, h1, h3]
      simp [hother, List.lookup_cons, beq_false_of_ne (Ne.symm h1),
        beq_false_of_ne (Ne.symm h3)]

lemma lookup_others {key : String} (hid : key ≠ "frameId") (hurl : key ≠ "frameUrl")
    (members : Members) : (members.filter isOther).lookup key = members.lookup key :=
  Json.Members.lookup_filter (p := fun k => k != "frameId" && k != "frameUrl")
    (by simp [hid, hurl]) members

lemma ofEventMembers_eq {members : Members} (h : FieldsOnce members) :
    Action.ofEventMembers (members.filter isOther) =
      match members.lookup "action" with
      | none => .error (.missingField "action")
      | some value =>
        (Action.Kind.ofValue value).bind fun kind => Action.ofFields kind (members.lookup ·) := by
  have haction : AtMostOnce ["action"] (members.filter isOther) :=
    fun key hk => (h.event.filter isOther) key (by simp_all)
  rw [Action.ofEventMembers, Action.splitKind_eq haction,
    lookup_others (by decide) (by decide)]
  cases hvalue : members.lookup "action" with
  | none => rfl
  | some value =>
    simp only
    cases hkind : Action.Kind.ofValue value with
    | error cause => rfl
    | ok kind =>
      have honce := ((h.action value kind hvalue hkind).filter isOther).filter (·.1 != "action")
      simp only [bind, Except.bind, Except.map]
      rw [Action.ofMembers_eq honce]
      apply Action.ofFields_congr
      intro key hk
      have hne : key ≠ "action" := fun he => kind.action_not_mem_fields (he ▸ hk)
      rw [Json.Members.lookup_filter (p := (· != "action")) (by simpa using hne)]
      exact lookup_others (fun he => kind.frame_not_mem_fields.1 (he ▸ hk))
        (fun he => kind.frame_not_mem_fields.2 (he ▸ hk)) members

theorem ofNode_object {start stop : Nat} {nodes : List (Key × Node)} {members : Members}
    (hv : Json.Node.MembersAre nodes members) (h : FieldsOnce members) :
    ofNode (.object start nodes (.ok stop)) =
      (ofFields (members.lookup ·)).mapError (.after stop) := by
  have hid := h.event "frameId" (by simp)
  have hurl := h.event "frameUrl" (by simp)
  rw [ofNode, gather_eq hv ⟨none, none, []⟩ (by simpa using hid) (by simpa using hurl)]
  simp only [bind, Except.bind, List.append_nil, List.reverse_reverse]
  rw [ofEventMembers_eq h, ofFields]
  cases members.lookup "action" with
  | none => rfl
  | some value =>
    cases hkind : Action.Kind.ofValue value with
    | error cause => simp [hkind, bind, Except.bind, Except.mapError]
    | ok kind =>
      cases haction : Action.ofFields kind (members.lookup ·) with
      | error cause => simp [hkind, haction, bind, Except.bind, Except.mapError]
      | ok action =>
        simp only [hkind, haction, bind, Except.bind, Except.mapError, pure, Except.pure]
        cases members.lookup "frameId" <;> cases members.lookup "frameUrl" <;> rfl

/-- A value that is read as an event. -/
def OfValue (v : Value) (event : Event) : Prop :=
  ∃ members, v = .object members ∧ ofFields (members.lookup ·) = .ok event

theorem ofNode_eq_ok {node : Node} {v : Value} {event : Event} (hv : node.value = .ok v)
    (hkeys : v.KeysDistinct) : ofNode node = .ok event ↔ OfValue v event := by
  cases hkeys with
  | object hnodup hkeys =>
    obtain ⟨start, nodes, stop, rfl, hnodes⟩ := Json.Node.value_eq_object hv
    simp [ofNode_object hnodes (.of_nodup hnodup), mapError_eq_ok, OfValue]
  | scalar s =>
    cases node <;> simp_all [ofNode, OfValue, Json.Node.value_array, Json.Node.value_object]
  | array h =>
    cases node <;> simp_all [ofNode, OfValue, Json.Node.value_array, Json.Node.value_object]

lemma listOfNode_array {start stop : Nat} {nodes : List Node} {events : List Event} :
    listOfNode (.array start nodes (.ok stop)) = .ok events ↔
      List.Forall₂ (fun node event => ofNode node = .ok event) nodes events := by
  rw [listOfNode, bind_eq_ok, ← mapM_eq_ok]
  simp

theorem listOfNode_eq_ok {node : Node} {v : Value} {events : List Event} (hv : node.value = .ok v)
    (hkeys : v.KeysDistinct) :
    listOfNode node = .ok events ↔ ∃ items, v = .array items ∧ List.Forall₂ OfValue items events := by
  cases hkeys with
  | @array items hkeys =>
    obtain ⟨start, nodes, stop, rfl, hnodes⟩ := Json.Node.value_eq_array hv
    rw [listOfNode_array]
    simp only [Value.array.injEq, exists_eq_left']
    refine forall₂_left_congr hnodes fun node item hitem hvalue event => ?_
    exact ofNode_eq_ok hvalue (hkeys item hitem)
  | scalar s =>
    cases node <;> simp_all [listOfNode, Json.Node.value_array, Json.Node.value_object]
  | object hnodup hkeys =>
    cases node <;> simp_all [listOfNode, Json.Node.value_array, Json.Node.value_object]

/-- A text in which no key occurs twice is a recording when its value is a list of events. -/
theorem readList_eq_ok {text : String} {v : Value} {events : List Event}
    (hread : Json.readText Node.value text = .ok v) (hkeys : v.KeysDistinct) :
    readList text = .ok events ↔ ∃ items, v = .array items ∧ List.Forall₂ OfValue items events := by
  obtain ⟨htrailing, hroot⟩ := Json.readText_eq_ok.mp hread
  rw [← listOfNode_eq_ok hroot hkeys]
  exact Json.readText_eq_ok.trans (and_iff_right htrailing)

end Event
end Retrace
