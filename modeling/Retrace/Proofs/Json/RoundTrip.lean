import Retrace.Proofs.Json.Bounds
import Retrace.Proofs.Json.Members
import Retrace.Proofs.Json.TokenText
import Retrace.Proofs.Json.WholeNumeral

/-! Printed values are read back. The reader of an outline passes the text of a value from where a value
is awaited to where it is done, and leaves the containers around it and the text behind it alone. -/
namespace Retrace

/-- The double is read back from what it is written as in JSON. -/
def Binary64.ReadsBack (x : Binary64) : Prop :=
  Json.readValue (NumberStyle.json.text x) = .ok (.scalar (.number (.double x)))

namespace Json
open Retrace.Json.Numeral (Stops)

/-- The doubles inside a value. -/
inductive Value.HasDouble (x : Binary64) : Value → Prop
  | number : HasDouble x (.scalar (.number (.double x)))
  | item {items : List Value} {v : Value} (h : v ∈ items) (hv : HasDouble x v) :
    HasDouble x (.array items)
  | member {members : Members} {m : String × Value} (h : m ∈ members) (hv : HasDouble x m.2) :
    HasDouble x (.object members)

namespace Value
variable {x : Binary64}

@[simp] lemma hasDouble_scalar {s : Scalar} :
    (scalar s).HasDouble x ↔ s = .number (.double x) :=
  ⟨fun h => by cases h with | number => rfl, fun h => h ▸ .number⟩

@[simp] lemma hasDouble_array {items : List Value} :
    (array items).HasDouble x ↔ ∃ v ∈ items, v.HasDouble x :=
  ⟨fun h => by cases h with | item h hv => exact ⟨_, h, hv⟩, fun ⟨_, h, hv⟩ => .item h hv⟩

@[simp] lemma hasDouble_object {members : Members} :
    (object members).HasDouble x ↔ ∃ m ∈ members, m.2.HasDouble x :=
  ⟨fun h => by cases h with | member h hv => exact ⟨_, h, hv⟩, fun ⟨_, h, hv⟩ => .member h hv⟩

lemma HasDouble.isFinite {v : Value} (h : v.HasDouble x) {depth : Nat} (hin : v.Within depth) :
    x.isFinite := by
  induction h generalizing depth with
  | number => exact within_scalar.mp hin
  | item hm _ ih =>
    cases hin with
    | array hin => exact ih (hin _ hm)
  | member hm _ ih =>
    cases hin with
    | object hin => exact ih (hin _ hm)

end Value

lemma Outline.ofTokens_cons {size : Nat} {token : Token} {rest : List Token}
    {stack stack' : List Open} {state state' : State}
    (h : step size token rest stack state = .ok (stack', state')) :
    ofTokens size (token :: rest) stack state = ofTokens size rest stack' state' := by
  rw [ofTokens]
  · rw [h]
  · rintro node rfl rfl
    cases h

lemma Number.spelled_whole {i : Int} (h : (Number.whole i).InRange) : (Number.whole i).Spelled := by
  refine ⟨.ofInt i, Retrace.Numeral.wellFormed_ofInt i, Retrace.Numeral.toString_int i, ?_⟩
  have hdigits : Retrace.Numeral.digitsValue (Nat.toDigits 10 i.natAbs) = i.natAbs :=
    Nat.ofDigitChars_ten_toDigits
  obtain ⟨hlow, hhigh⟩ := h
  by_cases hneg : i < 0
  · have hvalue := @Numeral.value?_of_negative (Nat.toDigits 10 i.natAbs) (by omega) (by omega)
    have hi : -(i.natAbs : Int) = i := by omega
    rw [hdigits, hi] at hvalue
    simp only [Retrace.Numeral.ofInt, hneg, decide_true]
    exact hvalue
  · obtain ⟨n, rfl⟩ : ∃ n : Nat, i = n := ⟨i.toNat, by omega⟩
    exact Numeral.value?_eq_whole_iff.mpr ⟨by simp [Retrace.Numeral.ofInt], rfl, rfl, hdigits,
      Int.ofNat_lt.mp hhigh⟩

lemma readValue_spelled {text : String} {n : Retrace.Numeral} {number : Number} (h : n.WellFormed)
    (htext : text.toList = n.spelled) :
    readValue text = .ok (.scalar (.number number)) ↔ Numeral.value? n = some number := by
  obtain ⟨stop, hall⟩ := Token.all_spelled h Numeral.stops_nil 0
  rw [readValue, readText_eq_ok, Document.ofText, htext, ← List.append_nil n.spelled, hall]
  unfold Numeral.number
  cases hvalue : Numeral.value? n with
  | none =>
    simp [Outline.ofTokens, Outline.step, Outline.step.startValue, Outline.State.breakOff,
      Outline.breakOff, Node.value, Except.map, bind, Except.bind]
  | some found =>
    simp only [Except.map]
    rw [Token.all, Outline.ofTokens_cons rfl]
    simp [Outline.ofTokens, Outline.State.atEnd, Node.value, Value.merged]

lemma Number.spelled_double {x : Binary64} (hfinite : x.isFinite) (h : x.ReadsBack) :
    (Number.double x).Spelled := by
  cases x with
  | finite negative size =>
    obtain ⟨n, hn, htext⟩ := NumberStyle.json_text_spelled negative size
    exact ⟨n, hn.wellFormed, by simp [Number.print, Binary64.isFinite, htext],
      (readValue_spelled hn.wellFormed htext).mp h⟩
  | _ => simp [Binary64.isFinite] at hfinite

namespace Outline

/-- The states in which a value may start. -/
inductive State.Awaits : State → Prop
  | value : Awaits .value
  | item (first : Bool) : Awaits (.item first)

variable {size : Nat}

lemma step_of_awaits {token : Token} {rest : List Token} {stack : List Open} {state : State}
    (h : state.Awaits) (hclose : token.kind ≠ .closeArray) :
    step size token rest stack state = step.startValue token stack .expectedValue := by
  cases h with
  | value => rfl
  | item first =>
    simp only [step]
    split
    · exact absurd ‹_› hclose
    · exact absurd ‹_› hclose
    · rfl

lemma startValue_of_holds {token : Token} {s : Scalar} (h : token.Holds s) (stack : List Open)
    (cause : Cause) :
    step.startValue token stack cause = .ok (stack, .done (.scalar s token.stop)) := by
  cases h <;> rfl

/-- Values whose text is passed wherever so many containers may still be opened. -/
def Passes (size room : Nat) (v : Value) : Prop :=
  ∀ (rest : List Char) (stack : List Open) (state : State) (offset : Nat), Stops rest →
    stack.length + room ≤ maxDepth → state.Awaits →
    ∃ node stop, node.value = .ok v ∧
      ofTokens size (Token.all (v.print ++ rest) offset) stack state =
        ofTokens size (Token.all rest stop) stack (.done node)

lemma passes_scalar {room : Nat} {s : Scalar} (h : s.Spelled) : Passes size room (.scalar s) := by
  intro rest stack state offset hrest hroom hstate
  obtain ⟨token, htoken, hall⟩ := Token.all_scalar h hrest offset
  refine ⟨.scalar s token.stop, token.stop, rfl, ?_⟩
  rw [Value.print, hall]
  apply ofTokens_cons
  rw [step_of_awaits hstate htoken.ne_closeArray, startValue_of_holds htoken]

lemma stops_furtherItems (items : List Value) (rest : List Char) :
    Stops (Value.printFurtherItems items ++ ']' :: rest) := by
  cases items <;> simp [Stops, Value.printFurtherItems]

lemma stops_furtherMembers (members : Members) (rest : List Char) :
    Stops (Value.printFurtherMembers members ++ '\x7d' :: rest) := by
  cases members with
  | nil => simp [Stops, Value.printFurtherMembers]
  | cons m members =>
    obtain ⟨k, v⟩ := m
    simp [Stops, Value.printFurtherMembers]

lemma passes_furtherItems {room : Nat} {items : List Value} (h : ∀ v ∈ items, Passes size room v)
    {rest : List Char} {stack : List Open} (hroom : stack.length + (room + 1) ≤ maxDepth)
    {start : Nat} (done : List Node) (node : Node) (offset : Nat) :
    ∃ nodes stop, Node.values nodes = .ok items ∧
      ofTokens size (Token.all (Value.printFurtherItems items ++ ']' :: rest) offset)
        (.array start done :: stack) (.done node) =
      ofTokens size (Token.all rest stop) stack
        (.done (.array start (done.reverse ++ node :: nodes) (.ok stop))) := by
  induction items generalizing done node offset with
  | nil =>
    refine ⟨[], offset + 1, rfl, ?_⟩
    rw [Value.printFurtherItems, List.nil_append, Token.all_cons (by decide)]
    apply ofTokens_cons
    simp [step, Token.scan]
  | cons v items ih =>
    obtain ⟨hv, hitems⟩ := List.forall_mem_cons.mp h
    obtain ⟨node', stop', hnode, hpass⟩ := hv (Value.printFurtherItems items ++ ']' :: rest)
      (.array start (node :: done) :: stack) (.item false) (offset + 1) (stops_furtherItems items rest)
      (by simp only [List.length_cons]; omega) (.item false)
    obtain ⟨nodes, stop, hnodes, hrest⟩ := ih hitems (node :: done) node' stop'
    refine ⟨node' :: nodes, stop, ?_, ?_⟩
    · exact Node.values_eq_ok.mpr (.cons hnode (Node.values_eq_ok.mp hnodes))
    · rw [List.reverse_cons, List.append_assoc] at hrest
      rw [Value.printFurtherItems, List.cons_append, List.cons_append, List.append_assoc,
        Token.all_cons (by decide)]
      exact (ofTokens_cons rfl).trans (hpass.trans hrest)

lemma ofTokens_openArray {stack : List Open} {state : State} (text : List Char)
    (hroom : stack.length < maxDepth) (hstate : state.Awaits) {offset : Nat} :
    ofTokens size (Token.all ('[' :: text) offset) stack state =
      ofTokens size (Token.all text (offset + 1)) (.array offset [] :: stack) (.item true) := by
  rw [Token.all_cons (by decide)]
  apply ofTokens_cons
  rw [step_of_awaits hstate (by simp [Token.scan])]
  exact if_pos hroom

lemma ofTokens_openObject {stack : List Open} {state : State} (text : List Char)
    (hroom : stack.length < maxDepth) (hstate : state.Awaits) {offset : Nat} :
    ofTokens size (Token.all ('\x7b' :: text) offset) stack state =
      ofTokens size (Token.all text (offset + 1)) stack (.key offset [] true) := by
  rw [Token.all_cons (by decide)]
  apply ofTokens_cons
  rw [step_of_awaits hstate (by simp [Token.scan])]
  exact if_pos hroom

lemma passes_array {room : Nat} {items : List Value} (h : ∀ v ∈ items, Passes size room v) :
    Passes size (room + 1) (.array items) := by
  intro rest stack state offset hrest hroom hstate
  rw [Value.print, List.cons_append, List.cons_append]
  rw [ofTokens_openArray _ (by omega) hstate]
  cases items with
  | nil =>
    refine ⟨.array offset [] (.ok (offset + 2)), offset + 2, rfl, ?_⟩
    rw [Value.printItems, List.nil_append, List.singleton_append, Token.all_cons (by decide)]
    exact ofTokens_cons rfl
  | cons v items =>
    obtain ⟨hv, hitems⟩ := List.forall_mem_cons.mp h
    obtain ⟨node, mid, hnode, hpass⟩ := hv (Value.printFurtherItems items ++ ']' :: rest)
      (.array offset [] :: stack) (.item true) (offset + 1) (stops_furtherItems items rest)
      (by simp only [List.length_cons]; omega) (.item true)
    obtain ⟨nodes, stop, hnodes, hpasses⟩ := passes_furtherItems hitems hroom [] node mid
    refine ⟨.array offset (node :: nodes) (.ok stop), stop, ?_, ?_⟩
    · exact Node.value_array.mpr ⟨_, _, rfl, rfl, Node.values_eq_ok.mpr
        (.cons hnode (Node.values_eq_ok.mp hnodes))⟩
    · rw [Value.printItems, List.append_assoc, List.append_assoc]
      exact hpass.trans hpasses

lemma ofTokens_key (size : Nat) (k : String) (text : List Char) (stack : List Open) (start : Nat)
    (members : List (Key × Node)) (first : Bool) (offset : Nat) :
    ∃ mark next, ofTokens size (Token.all (quoted k ++ ':' :: text) offset) stack
        (.key start members first) =
      ofTokens size (Token.all text next) (.member start members ⟨k, mark⟩ :: stack) .value := by
  obtain ⟨stop, hall⟩ := Token.all_quoted k (':' :: text) offset
  refine ⟨markOf size (Token.all (':' :: text) stop), stop + 1, ?_⟩
  rw [hall]
  refine (ofTokens_cons rfl).trans ?_
  rw [Token.all_cons (by decide)]
  exact ofTokens_cons rfl

lemma passes_furtherMembers {room : Nat} {members : Members}
    (h : ∀ m ∈ members, Passes size room m.2) {rest : List Char} {stack : List Open}
    (hroom : stack.length + (room + 1) ≤ maxDepth) {start : Nat} (done : List (Key × Node))
    (key : Key) (node : Node) (offset : Nat) :
    ∃ nodes stop, Node.memberValues nodes = .ok members ∧
      ofTokens size (Token.all (Value.printFurtherMembers members ++ '\x7d' :: rest) offset)
        (.member start done key :: stack) (.done node) =
      ofTokens size (Token.all rest stop) stack
        (.done (.object start (done.reverse ++ (key, node) :: nodes) (.ok stop))) := by
  induction members generalizing done key node offset with
  | nil =>
    refine ⟨[], offset + 1, rfl, ?_⟩
    rw [Value.printFurtherMembers, List.nil_append, Token.all_cons (by decide)]
    apply ofTokens_cons
    simp [step, Token.scan]
  | cons m members ih =>
    obtain ⟨k, v⟩ := m
    obtain ⟨hv, hmembers⟩ := List.forall_mem_cons.mp h
    let text := Value.printFurtherMembers members ++ '\x7d' :: rest
    obtain ⟨mark, next, hkey⟩ := ofTokens_key size k (v.print ++ text) stack start
      ((key, node) :: done) false (offset + 1)
    obtain ⟨node', stop', hnode, hpass⟩ := hv text
      (.member start ((key, node) :: done) ⟨k, mark⟩ :: stack) .value next
      (stops_furtherMembers members rest) (by simp only [List.length_cons]; omega) .value
    obtain ⟨nodes, stop, hnodes, hrest⟩ := ih hmembers ((key, node) :: done) ⟨k, mark⟩ node' stop'
    refine ⟨(⟨k, mark⟩, node') :: nodes, stop, ?_, ?_⟩
    · exact Node.memberValues_eq_ok.mpr (.cons ⟨rfl, hnode⟩ (Node.memberValues_eq_ok.mp hnodes))
    · rw [List.reverse_cons, List.append_assoc] at hrest
      have htext : Value.printFurtherMembers ((k, v) :: members) ++ '\x7d' :: rest =
          ',' :: (quoted k ++ ':' :: (v.print ++ text)) := by
        simp [Value.printFurtherMembers, text]
      rw [htext, Token.all_cons (by decide)]
      exact (ofTokens_cons rfl).trans (hkey.trans (hpass.trans hrest))

lemma passes_object {room : Nat} {members : Members} (h : ∀ m ∈ members, Passes size room m.2) :
    Passes size (room + 1) (.object members) := by
  intro rest stack state offset hrest hroom hstate
  rw [Value.print, List.cons_append, List.cons_append]
  rw [ofTokens_openObject _ (by omega) hstate]
  cases members with
  | nil =>
    refine ⟨.object offset [] (.ok (offset + 2)), offset + 2, rfl, ?_⟩
    rw [Value.printMembers, List.nil_append, List.singleton_append, Token.all_cons (by decide)]
    exact ofTokens_cons rfl
  | cons m members =>
    obtain ⟨k, v⟩ := m
    obtain ⟨hv, hmembers⟩ := List.forall_mem_cons.mp h
    let text := Value.printFurtherMembers members ++ '\x7d' :: rest
    obtain ⟨mark, next, hkey⟩ := ofTokens_key size k (v.print ++ text) stack offset [] true
      (offset + 1)
    obtain ⟨node, mid, hnode, hpass⟩ := hv text (.member offset [] ⟨k, mark⟩ :: stack) .value next
      (stops_furtherMembers members rest) (by simp only [List.length_cons]; omega) .value
    obtain ⟨nodes, stop, hnodes, hpasses⟩ :=
      passes_furtherMembers hmembers hroom [] ⟨k, mark⟩ node mid
    refine ⟨.object offset ((⟨k, mark⟩, node) :: nodes) (.ok stop), stop, ?_, ?_⟩
    · exact Node.value_object.mpr ⟨_, _, rfl, rfl, Node.memberValues_eq_ok.mpr
        (.cons ⟨rfl, hnode⟩ (Node.memberValues_eq_ok.mp hnodes))⟩
    · have htext : Value.printMembers ((k, v) :: members) ++ ['\x7d'] ++ rest =
          quoted k ++ ':' :: (v.print ++ text) := by
        simp [Value.printMembers, text]
      rw [htext]
      exact hkey.trans (hpass.trans hpasses)

theorem passes {room : Nat} {v : Value} (h : v.Within room)
    (hdouble : ∀ x, v.HasDouble x → x.isFinite ∧ x.ReadsBack) : Passes size room v := by
  induction h with
  | @scalar depth s h =>
    apply passes_scalar
    cases s with
    | number number =>
      cases number with
      | whole i => exact Number.spelled_whole h
      | double x =>
        obtain ⟨hfinite, hreads⟩ := hdouble x .number
        exact Number.spelled_double hfinite hreads
    | _ => trivial
  | array h ih => exact passes_array fun v hv => ih v hv fun x hx => hdouble x (.item hv hx)
  | object h ih => exact passes_object fun m hm => ih m hm fun x hx => hdouble x (.member hm hx)

end Outline

theorem ofText_compact {v : Value} (h : v.Within Outline.maxDepth)
    (hdouble : ∀ x, v.HasDouble x → x.isFinite ∧ x.ReadsBack) :
    ∃ node, node.value = .ok v ∧ Document.ofText v.compact.toList = ⟨node, none⟩ := by
  obtain ⟨node, stop, hnode, hpass⟩ := Outline.passes h hdouble [] [] .value 0 Numeral.stops_nil
    (by simp) .value
  refine ⟨node, hnode, ?_⟩
  rw [List.append_nil, Token.all] at hpass
  rw [Value.compact, String.toList_ofList, Document.ofText, hpass]
  rfl

/-- A value is read back from its compact text. -/
theorem readText_compact {v : Value} (h : v.Within Outline.maxDepth)
    (hdouble : ∀ x, v.HasDouble x → x.isFinite ∧ x.ReadsBack) :
    readText Node.value v.compact = .ok v := by
  obtain ⟨node, hnode, hdocument⟩ := ofText_compact h hdouble
  exact readText_eq_ok.mpr ⟨by rw [hdocument], by rw [hdocument, hnode]⟩

theorem readMembers_compact {members : Members} (h : (Value.object members).Within Outline.maxDepth)
    (hkeys : (Value.object members).KeysDistinct)
    (hdouble : ∀ x, (Value.object members).HasDouble x → x.isFinite ∧ x.ReadsBack) :
    readMembers (Value.object members).compact = .ok members := by
  obtain ⟨node, hnode, hdocument⟩ := ofText_compact h hdouble
  obtain ⟨start, nodes, stop, rfl, hnodes⟩ := Node.value_eq_object hnode
  have hmerged : Members.merge (Value.mergedMembers members) = members := by
    have hobject := hkeys.merged_eq
    rwa [Value.merged, Value.object.injEq] at hobject
  refine readText_eq_ok.mpr ⟨by rw [hdocument], ?_⟩
  rw [hdocument]
  refine bind_eq_ok.mpr ⟨members, Node.memberValues_eq_ok.mpr hnodes, ?_⟩
  exact bind_eq_ok.mpr ⟨stop, rfl, pure_eq_ok.mpr hmerged⟩

end Json
end Retrace
