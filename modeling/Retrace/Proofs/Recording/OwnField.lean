import Retrace.Proofs.Recording.OddField

/-! The fields an event is read from: its action, its frame and those of its action. Objects that hold the
same of these, each once, are read alike, in whatever order and with whatever else. -/
namespace Retrace
open Json (Value Members Cause Fault Node Key)
open Json.Members (keys AtMostOnce)

section Rearranged
variable {names : List String} {members members' : Members}

/-- The members with the given names. -/
def namedMembers (names : List String) (members : Members) : Members :=
  members.filter fun m => names.contains m.1

lemma filter_namedMembers {key : String} (h : key ∈ names) (members : Members) :
    (namedMembers names members).filter (·.1 == key) = members.filter (·.1 == key) := by
  rw [namedMembers, List.filter_filter]
  apply List.filter_congr
  intro m _
  by_cases hm : m.1 = key
  · simp [hm, h]
  · simp [hm]

lemma count_keys (key : String) (members : Members) :
    (keys members).count key = (members.filter (·.1 == key)).length := by
  rw [← List.countP_eq_length_filter, List.count, keys, List.countP_map]
  rfl

section Perm
variable (hperm : (namedMembers names members).Perm (namedMembers names members'))
include hperm

lemma filter_perm_of_named {key : String} (h : key ∈ names) :
    (members.filter (·.1 == key)).Perm (members'.filter (·.1 == key)) := by
  rw [← filter_namedMembers h members, ← filter_namedMembers h members']
  exact hperm.filter _

lemma atMostOnce_of_named (h : AtMostOnce names members) : AtMostOnce names members' := by
  intro key hkey
  have hcount := h key hkey
  rwa [count_keys, (filter_perm_of_named hperm hkey).length_eq, ← count_keys] at hcount

lemma lookup_eq_of_named (h : AtMostOnce names members) {key : String} (hkey : key ∈ names) :
    members'.lookup key = members.lookup key := by
  have hp := filter_perm_of_named hperm hkey
  rw [Json.Members.filter_eq_of_count (h key hkey),
    Json.Members.filter_eq_of_count (atMostOnce_of_named hperm h key hkey)] at hp
  cases hl : members.lookup key <;> cases hl' : members'.lookup key <;> simp_all

end Perm
end Rearranged

namespace Event

/-- The names of the fields that an event with these members is read from. -/
def ownNames (members : Members) : List String :=
  ["action", "frameId", "frameUrl"] ++ (Action.Kind.ofMembers members).fields

/-- Members that hold each own field of their event at most once, and members that hold the same ones in
some order. Either may hold any others. -/
structure SameOwn (members members' : Members) : Prop where
  once : AtMostOnce (ownNames members) members
  perm : (namedMembers (ownNames members) members).Perm (namedMembers (ownNames members) members')

lemma mem_ownNames_of_event {members : Members} {key : String}
    (h : key ∈ ["action", "frameId", "frameUrl"]) : key ∈ ownNames members :=
  List.mem_append_left _ h

lemma mem_ownNames_of_field {members : Members} {value : Value} {kind : Action.Kind} {key : String}
    (hvalue : members.lookup "action" = some value) (hkind : Action.Kind.ofValue value = .ok kind)
    (h : key ∈ kind.fields) : key ∈ ownNames members := by
  apply List.mem_append_right
  rwa [Action.Kind.ofMembers, hvalue, Option.bind_some, hkind]

lemma fieldsOnce_of_ownNames {members : Members} (h : AtMostOnce (ownNames members) members) :
    FieldsOnce members :=
  ⟨fun key hkey => h key (mem_ownNames_of_event hkey),
    fun _ _ hvalue hkind key hkey => h key (mem_ownNames_of_field hvalue hkind hkey)⟩

namespace SameOwn
variable {members members' : Members} (h : SameOwn members members')
include h

lemma lookup_eq {key : String} (hkey : key ∈ ownNames members) :
    members'.lookup key = members.lookup key :=
  lookup_eq_of_named h.perm h.once hkey

lemma ownNames_eq : ownNames members' = ownNames members := by
  have haction := h.lookup_eq (mem_ownNames_of_event List.mem_cons_self)
  rw [ownNames, ownNames, Action.Kind.ofMembers, Action.Kind.ofMembers, haction]

lemma once_right : AtMostOnce (ownNames members') members' := by
  rw [h.ownNames_eq]
  exact atMostOnce_of_named h.perm h.once

lemma ofFields_eq : ofFields (members'.lookup ·) = ofFields (members.lookup ·) := by
  have hevent (key : String) (hkey : key ∈ ["action", "frameId", "frameUrl"]) :=
    h.lookup_eq (mem_ownNames_of_event hkey)
  rw [ofFields, ofFields, hevent "action" (by simp), hevent "frameId" (by simp),
    hevent "frameUrl" (by simp)]
  cases hvalue : members.lookup "action" with
  | none => rfl
  | some value =>
    cases hkind : Action.Kind.ofValue value with
    | error cause => simp only [hkind, bind, Except.bind]
    | ok kind =>
      have hfields : Action.ofFields kind (members'.lookup ·) = Action.ofFields kind (members.lookup ·) :=
        Action.ofFields_congr fun key hkey => h.lookup_eq (mem_ownNames_of_field hvalue hkind hkey)
      simp only [hkind, bind, Except.bind, hfields]

end SameOwn

/-! ### Reading -/

/-- Values that hold the same for a reader of events: the same value, or two objects with the same own
fields. -/
inductive Alike : Value → Value → Prop
  | same (v : Value) : Alike v v
  | object {members members' : Members} (h : SameOwn members members') :
    Alike (.object members) (.object members')

lemma gather_congr {nodes nodes' : List (Key × Node)} {members : Members}
    (h : Json.Node.MembersAre nodes members) (h' : Json.Node.MembersAre nodes' members)
    (seen result : Partial) : gather seen nodes = .ok result ↔ gather seen nodes' = .ok result := by
  induction h generalizing nodes' seen with
  | nil =>
    cases h'
    rfl
  | @cons node m nodes rest hm hrest ih =>
    cases h' with
    | @cons node' _ nodes' _ hm' hrest' =>
      obtain ⟨⟨name, mark⟩, node⟩ := node
      obtain ⟨⟨name', mark'⟩, node'⟩ := node'
      obtain ⟨rfl, hv⟩ := hm
      obtain ⟨rfl, hv'⟩ := hm'
      rw [gather, gather]
      split_ifs
      · simp
      · rw [hv, hv']
        exact ih hrest' _
      · simp
      · rw [hv, hv']
        exact ih hrest' _
      · rw [hv, hv']
        exact ih hrest' _

lemma ofNode_object_eq_ok {start stop : Nat} {nodes : List (Key × Node)} {event : Event} :
    ofNode (.object start nodes (.ok stop)) = .ok event ↔
      ∃ seen, gather ⟨none, none, []⟩ nodes = .ok seen ∧
        Action.ofEventMembers seen.others.reverse = .ok event.action ∧
        seen.frameId.join = event.frameId ∧ seen.frameUrl.join = event.frameUrl := by
  rw [ofNode, bind_eq_ok]
  constructor
  · rintro ⟨seen, hseen, h⟩
    obtain ⟨n, hn, h⟩ := bind_eq_ok.mp h
    obtain ⟨action, haction, he⟩ := bind_eq_ok.mp h
    obtain rfl := pure_eq_ok.mp he
    exact ⟨seen, hseen, mapError_eq_ok.mp haction, rfl, rfl⟩
  · rintro ⟨seen, hseen, haction, hid, hurl⟩
    refine ⟨seen, hseen, bind_eq_ok.mpr ⟨stop, rfl, bind_eq_ok.mpr ⟨event.action, ?_, ?_⟩⟩⟩
    · exact mapError_eq_ok.mpr haction
    · rw [hid, hurl]
      rfl

lemma ofNode_of_not_object {node : Node} {v : Value} (hv : node.value = .ok v) (h : ¬ v.IsObject)
    (event : Event) : ofNode node ≠ .ok event := by
  cases node with
  | object start nodes stop =>
    obtain ⟨members, n, rfl, -⟩ := Json.Node.value_object.mp hv
    exact absurd ⟨members, rfl⟩ h
  | _ => simp [ofNode]

theorem Alike.ofNode_iff {node node' : Node} {v v' : Value} (h : Alike v v')
    (hv : node.value = .ok v) (hv' : node'.value = .ok v') (event : Event) :
    ofNode node = .ok event ↔ ofNode node' = .ok event := by
  cases h with
  | same v =>
    by_cases hobject : v.IsObject
    · obtain ⟨members, rfl⟩ := hobject
      obtain ⟨start, nodes, stop, rfl, hnodes⟩ := Json.Node.value_eq_object hv
      obtain ⟨start', nodes', stop', rfl, hnodes'⟩ := Json.Node.value_eq_object hv'
      simp only [ofNode_object_eq_ok, gather_congr hnodes hnodes']
    · exact iff_of_false (ofNode_of_not_object hv hobject event)
        (ofNode_of_not_object hv' hobject event)
  | @object members members' h =>
    obtain ⟨start, nodes, stop, rfl, hnodes⟩ := Json.Node.value_eq_object hv
    obtain ⟨start', nodes', stop', rfl, hnodes'⟩ := Json.Node.value_eq_object hv'
    rw [ofNode_object hnodes (fieldsOnce_of_ownNames h.once),
      ofNode_object hnodes' (fieldsOnce_of_ownNames h.once_right), mapError_eq_ok, mapError_eq_ok,
      h.ofFields_eq]

lemma forall₂_ofNode_iff {items items' : List Value} (h : List.Forall₂ Alike items items')
    {nodes nodes' : List Node} (hv : List.Forall₂ (fun node v => node.value = .ok v) nodes items)
    (hv' : List.Forall₂ (fun node v => node.value = .ok v) nodes' items') {events : List Event} :
    List.Forall₂ (fun node event => ofNode node = .ok event) nodes events ↔
      List.Forall₂ (fun node event => ofNode node = .ok event) nodes' events := by
  induction h generalizing nodes nodes' events with
  | nil =>
    cases hv
    cases hv'
    rfl
  | cons halike hrest ih =>
    cases hv with
    | cons hnode hnodes =>
      cases hv' with
      | cons hnode' hnodes' =>
        simp only [List.forall₂_cons_left_iff, halike.ofNode_iff hnode hnode', ih hnodes hnodes']

lemma exists_members_of_gather {nodes : List (Key × Node)} {seen result : Partial}
    (h : gather seen nodes = .ok result) : ∃ members, Json.Node.MembersAre nodes members := by
  induction nodes generalizing seen with
  | nil => exact ⟨[], .nil⟩
  | cons node rest ih =>
    obtain ⟨key, node⟩ := node
    have hcons {v : Value} (hv : node.value = .ok v) {seen : Partial}
        (h : gather seen rest = .ok result) :
        ∃ members, Json.Node.MembersAre ((key, node) :: rest) members := by
      obtain ⟨members, hmembers⟩ := ih h
      exact ⟨(key.name, v) :: members, .cons ⟨rfl, hv⟩ hmembers⟩
    rw [gather] at h
    split_ifs at h
    · obtain ⟨v, hv, h⟩ := bind_eq_ok.mp h
      exact hcons hv h
    · obtain ⟨v, hv, h⟩ := bind_eq_ok.mp h
      exact hcons hv h
    · obtain ⟨v, hv, h⟩ := bind_eq_ok.mp h
      exact hcons hv h

lemma exists_value_of_ofNode {node : Node} {event : Event} (h : ofNode node = .ok event) :
    ∃ v, node.value = .ok v := by
  cases node with
  | object start nodes stop =>
    obtain ⟨seen, hseen, h⟩ := bind_eq_ok.mp h
    obtain ⟨n, hn, -⟩ := bind_eq_ok.mp h
    obtain ⟨members, hmembers⟩ := exists_members_of_gather hseen
    exact ⟨_, Json.Node.value_object.mpr
      ⟨members, n, rfl, hn, Json.Node.memberValues_eq_ok.mpr hmembers⟩⟩
  | _ => simp [ofNode] at h

lemma exists_value_of_listOfNode {node : Node} {events : List Event}
    (h : listOfNode node = .ok events) : ∃ v, node.value = .ok v := by
  cases node with
  | array start nodes stop =>
    obtain ⟨events', hevents, h⟩ := bind_eq_ok.mp h
    obtain ⟨n, hn, -⟩ := bind_eq_ok.mp h
    obtain ⟨items, hitems⟩ : ∃ items, List.Forall₂ (fun node v => node.value = .ok v) nodes items := by
      apply exists_forall₂.mpr
      intro node hnode
      obtain ⟨event, -, hread⟩ := exists_right_of_mem (mapM_eq_ok.mp hevents) hnode
      exact exists_value_of_ofNode hread
    exact ⟨_, Json.Node.value_array.mpr
      ⟨items, n, rfl, hn, Json.Node.values_eq_ok.mpr hitems⟩⟩
  | _ => simp [listOfNode] at h

section Texts
variable {text text' : String}

lemma read_iff_of_alike {v v' : Value} (hread : Json.readText Node.value text = .ok v)
    (hread' : Json.readText Node.value text' = .ok v') (h : Alike v v') (event : Event) :
    read text = .ok event ↔ read text' = .ok event := by
  obtain ⟨htrailing, hroot⟩ := Json.readText_eq_ok.mp hread
  obtain ⟨htrailing', hroot'⟩ := Json.readText_eq_ok.mp hread'
  rw [read, read, Json.readText_eq_ok, Json.readText_eq_ok, h.ofNode_iff hroot hroot']
  simp only [htrailing, htrailing']

lemma readList_iff_of_alike {items items' : List Value}
    (hread : Json.readText Node.value text = .ok (.array items))
    (hread' : Json.readText Node.value text' = .ok (.array items'))
    (h : List.Forall₂ Alike items items') (events : List Event) :
    readList text = .ok events ↔ readList text' = .ok events := by
  obtain ⟨htrailing, hroot⟩ := Json.readText_eq_ok.mp hread
  obtain ⟨htrailing', hroot'⟩ := Json.readText_eq_ok.mp hread'
  obtain ⟨start, nodes, stop, hnode, hnodes⟩ := Json.Node.value_eq_array hroot
  obtain ⟨start', nodes', stop', hnode', hnodes'⟩ := Json.Node.value_eq_array hroot'
  rw [readList, readList, Json.readText_eq_ok, Json.readText_eq_ok, hnode, hnode', listOfNode_array,
    listOfNode_array, forall₂_ofNode_iff h hnodes hnodes']
  simp only [htrailing, htrailing']

lemma not_read_of_unreadable (h : ∀ v, Json.readText Node.value text ≠ .ok v) :
    (∀ event, read text ≠ .ok event) ∧ ∀ events, readList text ≠ .ok events := by
  constructor
  · intro event hevent
    obtain ⟨htrailing, hroot⟩ := Json.readText_eq_ok.mp hevent
    obtain ⟨v, hv⟩ := exists_value_of_ofNode hroot
    exact h v (Json.readText_eq_ok.mpr ⟨htrailing, hv⟩)
  · intro events hevents
    obtain ⟨htrailing, hroot⟩ := Json.readText_eq_ok.mp hevents
    obtain ⟨v, hv⟩ := exists_value_of_listOfNode hroot
    exact h v (Json.readText_eq_ok.mpr ⟨htrailing, hv⟩)

end Texts

/-- Only its own fields decide what an event is read as: neither the order of its members nor a member with
another name. -/
theorem only_own_fields_matter (text text' : String) :
    (∀ members members', Json.readText Node.value text = .ok (.object members) →
      Json.readText Node.value text' = .ok (.object members') → SameOwn members members' →
      ∀ event, read text = .ok event ↔ read text' = .ok event) ∧
    (∀ items items', Json.readText Node.value text = .ok (.array items) →
      Json.readText Node.value text' = .ok (.array items') → List.Forall₂ Alike items items' →
      ∀ events, readList text = .ok events ↔ readList text' = .ok events) ∧
    (∀ members members', Json.readText Node.value text = .ok (.object members) →
      Json.readText Node.value text' = .ok (.object members') →
      Action.Kind.ofMembers members = .unknown →
      AtMostOnce ["action", "frameId", "frameUrl"] members →
      (namedMembers ["action", "frameId", "frameUrl"] members).Perm
        (namedMembers ["action", "frameId", "frameUrl"] members') →
      ∀ event, read text = .ok event ↔ read text' = .ok event) ∧
    ((∀ v, Json.readText Node.value text ≠ .ok v) →
      (∀ event, read text ≠ .ok event) ∧ ∀ events, readList text ≠ .ok events) := by
  refine ⟨?_, ?_, ?_, not_read_of_unreadable⟩
  · intro members members' hread hread' h event
    exact read_iff_of_alike hread hread' (.object h) event
  · intro items items' hread hread' h events
    exact readList_iff_of_alike hread hread' h events
  · intro members members' hread hread' hunknown honce hperm event
    have hnames : ownNames members = ["action", "frameId", "frameUrl"] := by
      rw [ownNames, hunknown]
      rfl
    have hsame : SameOwn members members' := ⟨hnames ▸ honce, hnames ▸ hperm⟩
    exact read_iff_of_alike hread hread' (.object hsame) event

/-- A key pressed in a frame, as a recorder lists it. -/
def keyMembers : Members :=
  [("action", .string "keydown"), ("keyCode", .scalar (.number (.whole 13))),
    ("frameId", .scalar (.number (.whole 2)))]

/-- The same in another order, among members that no event has. -/
def noisyKeyMembers : Members :=
  [("note", Json.Value.null), ("keyCode", .scalar (.number (.whole 13))), ("href", .array []),
    ("action", .string "keydown"), ("note", .object [("frameId", Json.Value.null)]),
    ("frameId", .scalar (.number (.whole 2)))]

theorem readList_of_key_among_foreign_members :
    let recording : Value := .array [.object keyMembers]
    let noisy : Value := .array [.object noisyKeyMembers]
    Json.readText Node.value recording.compact = .ok recording ∧
    Json.readText Node.value noisy.compact = .ok noisy ∧ SameOwn keyMembers noisyKeyMembers ∧
    readList noisy.compact = .ok [⟨.keydown none none (some 13), some 2, none⟩] := by
  intro recording noisy
  have hread : Json.readText Node.value recording.compact = .ok recording := by
    apply Json.readText_compact
    · simp [recording, keyMembers, Value.string, Json.Outline.maxDepth, Json.Scalar.InRange,
        Json.Number.InRange, twoTo]
    · simp [recording, keyMembers, Value.string]
  have hnoisy : Json.readText Node.value noisy.compact = .ok noisy := by
    apply Json.readText_compact
    · simp [noisy, noisyKeyMembers, Value.string, Value.null, Json.Outline.maxDepth,
        Json.Scalar.InRange, Json.Number.InRange, twoTo]
    · simp [noisy, noisyKeyMembers, Value.string, Value.null]
  have hnames : ownNames keyMembers =
      ["action", "frameId", "frameUrl", "selector", "value", "keyCode"] := by
    rw [ownNames, Action.Kind.ofMembers_of_named rfl (.word "keydown")]
    rfl
  have hsame : SameOwn keyMembers noisyKeyMembers := by
    constructor <;> rw [hnames]
    · exact .of_nodup (by decide) _
    · exact .swap ..
  have hevents : readList recording.compact = .ok [⟨.keydown none none (some 13), some 2, none⟩] := by
    have hkeys : recording.KeysDistinct := by simp [recording, keyMembers, Value.string]
    exact (readList_eq_ok hread hkeys).mpr ⟨_, rfl, .cons ⟨_, rfl, rfl⟩ .nil⟩
  refine ⟨hread, hnoisy, hsame, ?_⟩
  have hlist := (only_own_fields_matter recording.compact noisy.compact).2.1 _ _ hread hnoisy
    (.cons (.object hsame) .nil)
  exact (hlist _).mp hevents

end Event
end Retrace
