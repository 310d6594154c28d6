import Retrace.Proofs.Number.PlainText
import Retrace.Proofs.Recording.RoundTrip
import Retrace.Proofs.Script.HandleScope

/-! The sides of a viewport, from the recording to the line. A number of a JSON text is finite; a text may
also be read as a number that is not, and is then written as a word. -/
namespace Retrace
open Json (Value Members Node Key)

namespace Json

/-- The texts inside a value. -/
inductive Value.HasText (text : String) : Value → Prop
  | string : HasText text (.scalar (.string text))
  | item {items : List Value} {v : Value} (h : v ∈ items) (hv : HasText text v) :
    HasText text (.array items)
  | member {members : Members} {m : String × Value} (h : m ∈ members) (hv : HasText text m.2) :
    HasText text (.object members)

/-- The texts inside an outline. -/
inductive Node.HasText (text : String) : Node → Prop
  | string (stop : Nat) : HasText text (.scalar (.string text) stop)
  | item {start : Nat} {nodes : List Node} {stop : Except Fault Nat} {node : Node}
    (h : node ∈ nodes) (hn : HasText text node) : HasText text (.array start nodes stop)
  | member {start : Nat} {nodes : List (Key × Node)} {stop : Except Fault Nat} {node : Key × Node}
    (h : node ∈ nodes) (hn : HasText text node.2) : HasText text (.object start nodes stop)

theorem Value.HasText.node {text : String} {v : Value} (h : v.HasText text) :
    ∀ {node : Node}, node.value = .ok v → node.HasText text := by
  induction h with
  | string =>
    intro node hv
    cases node with
    | scalar s stop =>
      simp only [Node.value, Except.ok.injEq, Value.scalar.injEq] at hv
      exact hv ▸ .string stop
    | array start nodes stop =>
      obtain ⟨items, n, he, -⟩ := Node.value_array.mp hv
      cases he
    | object start nodes stop =>
      obtain ⟨members, n, he, -⟩ := Node.value_object.mp hv
      cases he
    | broken fault => simp [Node.value] at hv
  | item hm _ ih =>
    intro node hv
    obtain ⟨start, nodes, stop, rfl, hnodes⟩ := Node.value_eq_array hv
    obtain ⟨node, hnode, hv⟩ := exists_left_of_mem hnodes hm
    exact .item hnode (ih hv)
  | member hm _ ih =>
    intro node hv
    obtain ⟨start, nodes, stop, rfl, hnodes⟩ := Node.value_eq_object hv
    obtain ⟨node, hnode, -, hv⟩ := exists_left_of_mem hnodes hm
    exact .member hnode (ih hv)

end Json

/-! ### Numbers that are not finite -/

/-- A text for no finite number: after an optional sign, a word in any case or a numeral with no finite double
near to it. -/
def IsBeyond (text : List Char) : Prop :=
  ∃ sign body, text = sign ++ body ∧ sign ∈ [[], ['+'], ['-']] ∧
    (String.ofList (body.map Char.toLower) ∈ ["inf", "infinity", "nan"] ∨
      ∃ n, Numeral.ofBody? (sign = ['-']) body = some n ∧ ¬ n.nearest.isFinite)

namespace Binary64

lemma ofUnsigned?_not_finite_iff {negative : Bool} {body : List Char} :
    (∃ x, ofUnsigned? negative body = some x ∧ ¬ x.isFinite) ↔
      String.ofList (body.map Char.toLower) ∈ ["inf", "infinity", "nan"] ∨
        ∃ n, Numeral.ofBody? negative body = some n ∧ ¬ n.nearest.isFinite := by
  simp only [ofUnsigned?]
  generalize String.ofList (body.map Char.toLower) = word
  split_ifs with hinfinite hnan
  · have hword : word ∈ ["inf", "infinity", "nan"] := by
      simp only [Bool.or_eq_true, decide_eq_true_eq] at hinfinite
      rcases hinfinite with rfl | rfl <;> simp
    simp [hword, isFinite]
  · simp [hnan, isFinite]
  · have hword : word ∉ ["inf", "infinity", "nan"] := by
      simp only [Bool.or_eq_true, decide_eq_true_eq, not_or] at hinfinite
      simp [hinfinite, hnan]
    simp [hword, Option.map_eq_some_iff]

lemma ofUnsigned?_sign {c : Char} (hc : c ∈ ['-', '+']) (negative : Bool) (body : List Char) :
    ofUnsigned? negative (c :: body) = none := by
  simp only [List.mem_cons, List.not_mem_nil, or_false] at hc
  have hword : ∀ word ∈ ["inf", "infinity", "nan"],
      String.ofList ((c :: body).map Char.toLower) ≠ word := by
    intro word hw he
    have hlist := congrArg String.toList he
    simp only [List.mem_cons, List.not_mem_nil, or_false] at hw
    rcases hc with rfl | rfl <;> rcases hw with rfl | rfl | rfl <;> simp at hlist
  have hbody : Numeral.ofBody? negative (c :: body) = none := by
    rcases hc with rfl | rfl <;> simp [Numeral.ofBody?]
  have hinf := hword "inf" (by simp)
  have hinfinity := hword "infinity" (by simp)
  have hnan := hword "nan" (by simp)
  simp only [ofUnsigned?, hinf, hinfinity, hnan, hbody, decide_false, Bool.or_self,
    Bool.false_eq_true, if_false, Option.map_none]

theorem ofText?_not_finite_iff {text : List Char} :
    (∃ x, ofText? text = some x ∧ ¬ x.isFinite) ↔ IsBeyond text := by
  constructor
  · rintro ⟨x, h, hx⟩
    unfold ofText? at h
    split at h
    · exact ⟨['-'], _, rfl, by simp, ofUnsigned?_not_finite_iff.mp ⟨x, h, hx⟩⟩
    · exact ⟨['+'], _, rfl, by simp, ofUnsigned?_not_finite_iff.mp ⟨x, h, hx⟩⟩
    · exact ⟨[], _, rfl, by simp, ofUnsigned?_not_finite_iff.mp ⟨x, h, hx⟩⟩
  · rintro ⟨sign, body, rfl, hsign, hbody⟩
    have hunsigned := ofUnsigned?_not_finite_iff.mpr hbody
    simp only [List.mem_cons, List.not_mem_nil, or_false] at hsign
    rcases hsign with rfl | rfl | rfl
    · obtain ⟨x, hx, hfinite⟩ := hunsigned
      refine ⟨x, ?_, hfinite⟩
      rw [List.nil_append]
      unfold ofText?
      split
      · rw [ofUnsigned?_sign (by decide)] at hx
        cases hx
      · rw [ofUnsigned?_sign (by decide)] at hx
        cases hx
      · exact hx
    · exact hunsigned
    · exact hunsigned

end Binary64

lemma Json.Number.InRange.isFinite {n : Json.Number} (h : n.InRange) : n.toDouble.isFinite := by
  cases n with
  | double x => exact h
  | whole i =>
    obtain ⟨hlow, hhigh⟩ := h
    apply Binary64.isFinite_ofInt
    have hpow : (twoTo 63 : Int) ≤ twoTo 64 := by decide
    omega

namespace Field

theorem exists_text_of_not_finite {v : Value} {depth : Nat} {x : Binary64} (hin : v.Within depth)
    (h : number v = some x) (hx : ¬ x.isFinite) :
    ∃ s, v = .scalar (.string s) ∧ IsBeyond (Text.trim s.toList) := by
  unfold number at h
  split at h
  · obtain rfl := Option.some.inj h
    exact absurd (Value.within_scalar.mp hin : Json.Number.InRange _).isFinite hx
  · exact ⟨_, rfl, Binary64.ofText?_not_finite_iff.mp ⟨x, h, hx⟩⟩
  · cases h

end Field

/-! ### Where a side comes from -/

namespace ViewportSize

/-- A side that is given. -/
def Has (x : Binary64) (size : ViewportSize) : Prop := size.width = some x ∨ size.height = some x

lemma exists_text_of_has {v : Value} {depth : Nat} {size : ViewportSize} {x : Binary64}
    (hin : v.Within depth) (h : ofValue? v = .ok (some size)) (hside : size.Has x)
    (hx : ¬ x.isFinite) :
    ∃ s, v.HasText s ∧ Field.number (.scalar (.string s)) = some x ∧
      IsBeyond (Text.trim s.toList) := by
  unfold ofValue? at h
  split at h
  · cases h
  · rename_i members
    obtain ⟨own, hown, he⟩ := bind_eq_ok.mp h
    obtain rfl := Option.some.inj (pure_eq_ok.mp he)
    have hmember {key : String} (hk : (own.lookup key).bind Field.number = some x) :
        ∃ m ∈ members, Field.number m.2 = some x := by
      obtain ⟨v, hv, hnumber⟩ := Option.bind_eq_some_iff.mp hk
      rw [ownMembers_eq_ok hown] at hv
      exact ⟨_, List.mem_of_mem_filter (Json.Members.mem_of_lookup hv), hnumber⟩
    obtain ⟨m, hm, hnumber⟩ := hside.elim hmember hmember
    cases hin with
    | object hin =>
      obtain ⟨s, hs, hbeyond⟩ := Field.exists_text_of_not_finite (hin m hm) hnumber hx
      exact ⟨s, .member hm (hs ▸ .string), hs ▸ hnumber, hbeyond⟩
  · rename_i items
    split_ifs at h
    obtain rfl := Option.some.inj (Except.ok.inj h)
    have hitem {i : Nat} (hk : items[i]?.bind Field.number = some x) :
        ∃ v ∈ items, Field.number v = some x := by
      obtain ⟨v, hv, hnumber⟩ := Option.bind_eq_some_iff.mp hk
      exact ⟨v, List.mem_of_getElem? hv, hnumber⟩
    obtain ⟨v, hm, hnumber⟩ := hside.elim hitem hitem
    cases hin with
    | array hin =>
      obtain ⟨s, hs, hbeyond⟩ := Field.exists_text_of_not_finite (hin v hm) hnumber hx
      exact ⟨s, .item hm (hs ▸ .string), hs ▸ hnumber, hbeyond⟩
  · cases h

end ViewportSize

namespace Action

lemma exists_value_of_viewport {members : Members} {size : ViewportSize}
    (h : ofEventMembers members = .ok (.viewport (some size))) :
    ∃ m ∈ members, ViewportSize.ofValue? m.2 = .ok (some size) := by
  obtain ⟨⟨kind, fields⟩, hsplit, hread⟩ := bind_eq_ok.mp h
  cases kind with
  | viewport =>
    obtain ⟨result, hcontainer, he⟩ := map_eq_ok.mp hread
    obtain rfl := Action.viewport.inj he
    obtain ⟨result', hvalue, hrest⟩ := bind_eq_ok.mp hcontainer
    obtain ⟨own, -, he⟩ := bind_eq_ok.mp hrest
    obtain rfl := pure_eq_ok.mp he
    cases hlookup : fields.lookup "value" with
    | none => simp [hlookup, Value.null, ViewportSize.ofValue?] at hvalue
    | some v =>
      rw [hlookup, Option.getD_some] at hvalue
      exact ⟨_, mem_of_splitKind hsplit _ (Json.Members.mem_of_lookup hlookup), hvalue⟩
  | cookie | storage =>
    obtain ⟨result, -, he⟩ := map_eq_ok.mp hread
    cases he
  | unknown => cases Except.ok.inj hread
  | click | change | keydown | visit | navigation =>
    obtain ⟨own, -, he⟩ := bind_eq_ok.mp hread
    cases pure_eq_ok.mp he

end Action

/-- A side that is not finite is a text of the recording. -/
theorem exists_text_of_side {text : String} {events : List Event}
    (h : Event.readList text = .ok events) {event : Event} (hevent : event ∈ events)
    {size : ViewportSize} (hsize : event.action = .viewport (some size)) {x : Binary64}
    (hside : size.Has x) (hx : ¬ x.isFinite) :
    ∃ s, (Json.Document.ofText text.toList).root.HasText s ∧
      Field.number (.scalar (.string s)) = some x ∧ IsBeyond (Text.trim s.toList) := by
  have hin := Json.Document.root_within text.toList
  obtain ⟨start, items, stop, hroot, hevents⟩ := Event.exists_items_of_readList h
  obtain ⟨item, hitem, hread⟩ := exists_left_of_mem hevents hevent
  obtain ⟨begin, nodes, last, seen, rfl, -, -, haction, horigin⟩ :=
    Event.exists_members_of_ofNode hread
  rw [hsize] at haction
  obtain ⟨m, hm, hvalue⟩ := Action.exists_value_of_viewport haction
  obtain ⟨node, hnode, hv⟩ := horigin m (List.mem_reverse.mp hm)
  rw [hroot] at hin ⊢
  cases hin with
  | array hin =>
    cases hin _ hitem with
    | object hin =>
      obtain ⟨s, hs, hnumber, hbeyond⟩ :=
        ViewportSize.exists_text_of_has ((hin node hnode).value hv) hvalue hside hx
      exact ⟨s, .item hitem (.member hnode (hs.node hv)), hnumber, hbeyond⟩

end Retrace
