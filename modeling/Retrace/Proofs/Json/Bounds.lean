import Retrace.Proofs.Json.Node

/-! Bounds of all that is read. A whole number fits the 64 bits it was gathered in, every other number is a
finite double, and no value nests deeper than the containers that may lie in each other. -/
namespace Retrace.Json

/-- The numbers that a text can hold: whole ones of 64 bits without a sign, or of 63 bits and a minus, and
finite doubles. -/
def Number.InRange : Number → Prop
  | .whole i => -(twoTo 63 : Int) ≤ i ∧ i < twoTo 64
  | .double x => x.isFinite

def Scalar.InRange : Scalar → Prop
  | .number n => n.InRange
  | _ => True

/-- Values of at most so many containers in each other, with whole numbers in range. -/
inductive Value.Within : Nat → Value → Prop
  | scalar {depth : Nat} {s : Scalar} (h : s.InRange) : Within depth (.scalar s)
  | array {depth : Nat} {items : List Value} (h : ∀ v ∈ items, Within depth v) :
    Within (depth + 1) (.array items)
  | object {depth : Nat} {members : Members} (h : ∀ m ∈ members, Within depth m.2) :
    Within (depth + 1) (.object members)

@[simp] lemma Value.within_scalar {depth : Nat} {s : Scalar} :
    (Value.scalar s).Within depth ↔ s.InRange :=
  ⟨fun h => by cases h with | scalar h => exact h, .scalar⟩

@[simp] lemma Value.within_array {depth : Nat} {items : List Value} :
    (Value.array items).Within (depth + 1) ↔ ∀ v ∈ items, v.Within depth :=
  ⟨fun h => by cases h with | array h => exact h, .array⟩

@[simp] lemma Value.within_object {depth : Nat} {members : Members} :
    (Value.object members).Within (depth + 1) ↔ ∀ m ∈ members, m.2.Within depth :=
  ⟨fun h => by cases h with | object h => exact h, .object⟩

lemma Value.Within.mono {depth more : Nat} {v : Value} (h : v.Within depth) (hle : depth ≤ more) :
    v.Within more := by
  induction h generalizing more with
  | scalar h => exact .scalar h
  | array h ih =>
    obtain ⟨more, rfl⟩ : ∃ n, more = n + 1 := ⟨more - 1, by omega⟩
    exact .array fun v hv => ih v hv (by omega)
  | object h ih =>
    obtain ⟨more, rfl⟩ : ∃ n, more = n + 1 := ⟨more - 1, by omega⟩
    exact .object fun m hm => ih m hm (by omega)

/-- The same of an outline, whose last part may be a fault. -/
inductive Node.Within : Nat → Node → Prop
  | scalar {depth : Nat} {s : Scalar} (h : s.InRange) (stop : Nat) : Within depth (.scalar s stop)
  | array {depth : Nat} {items : List Node} (h : ∀ n ∈ items, Within depth n) (start : Nat)
      (stop : Except Fault Nat) : Within (depth + 1) (.array start items stop)
  | object {depth : Nat} {members : List (Key × Node)} (h : ∀ m ∈ members, Within depth m.2)
      (start : Nat) (stop : Except Fault Nat) : Within (depth + 1) (.object start members stop)
  | broken {depth : Nat} (fault : Fault) : Within depth (.broken fault)

theorem Node.Within.value {depth : Nat} {node : Node} (h : node.Within depth) :
    ∀ {v : Value}, node.value = .ok v → v.Within depth := by
  induction h with
  | scalar h stop =>
    intro v hv
    simp only [Node.value, Except.ok.injEq] at hv
    exact hv ▸ .scalar h
  | array h start stop ih =>
    intro v hv
    obtain ⟨items, n, rfl, -, hitems⟩ := value_array.mp hv
    apply Value.Within.array
    intro item hm
    obtain ⟨node, hnode, hitem⟩ := exists_left_of_mem (values_eq_ok.mp hitems) hm
    exact ih node hnode hitem
  | object h start stop ih =>
    intro v hv
    obtain ⟨members, n, rfl, -, hmembers⟩ := value_object.mp hv
    apply Value.Within.object
    intro m hm
    obtain ⟨node, hnode, hitem⟩ := exists_left_of_mem (memberValues_eq_ok.mp hmembers) hm
    exact ih node hnode hitem.2
  | broken fault => simp [Node.value]

/-! ### Numbers -/

namespace Numeral

lemma withDigit?_lt {significand n : Nat} {digit : Char} (h : withDigit? significand digit = some n) :
    n < twoTo 64 := by
  simp only [withDigit?] at h
  split_ifs at h with hlt
  exact Option.some.inj h ▸ hlt

lemma addWhole_lt {g : Gathered} (h : g.significand < twoTo 64) (digit : Char) :
    (g.addWhole digit).significand < twoTo 64 := by
  unfold Gathered.addWhole
  split_ifs
  · exact h
  · split
    · rename_i n hn
      exact withDigit?_lt hn
    · exact h

lemma gatherWhole_lt (digits : List Char) : (gatherWhole digits).significand < twoTo 64 := by
  have h : ∀ g : Gathered, g.significand < twoTo 64 →
      (digits.foldl Gathered.addWhole g).significand < twoTo 64 := by
    induction digits with
    | nil => exact fun _ h => h
    | cons digit rest ih => exact fun g hg => ih _ (addWhole_lt hg digit)
  exact h ⟨0, 0, false⟩ (twoTo_pos 64)

lemma isFinite_double? {n : Numeral} {x : Binary64} (h : double? n = some x) : x.isFinite := by
  simp only [double?, Option.bind_eq_bind, Option.pure_def, Option.bind_eq_some_iff] at h
  obtain ⟨significand, -, size, -, hx⟩ := h
  obtain rfl := Option.some.inj hx
  rfl

theorem value?_inRange {n : Numeral} {number : Number} (h : value? n = some number) :
    number.InRange := by
  simp only [value?] at h
  have hlt := gatherWhole_lt n.whole
  split_ifs at h with hdouble hneg hsize
  · obtain ⟨x, hx, rfl⟩ := Option.map_eq_some_iff.mp h
    exact isFinite_double? hx
  · obtain rfl := Option.some.inj h
    simp only [Bool.and_eq_true, decide_eq_true_eq] at hsize
    exact ⟨by omega, by omega⟩
  · obtain ⟨size, -, rfl⟩ := Option.map_eq_some_iff.mp h
    rfl
  · obtain rfl := Option.some.inj h
    exact ⟨by omega, by exact_mod_cast hlt⟩

end Numeral

/-! ### Tokens -/

/-- A token whose number, if it has one, is in range. -/
def Token.InRange (token : Token) : Prop :=
  ∀ s skim, token.kind = .plain (.ok s) skim → s.InRange

namespace Token

lemma ofWord_inRange {value : Scalar} (h : value.InRange) (word text : List Char) (start : Nat) :
    (ofWord value word text start).token.InRange := by
  intro s skim hk
  unfold ofWord at hk
  split at hk
  · simp only [Kind.plain.injEq, Except.ok.injEq] at hk
    exact hk.1 ▸ h
  · simp at hk

lemma ofString_inRange (text : List Char) (start : Nat) : (ofString text start).token.InRange := by
  intro s skim hk
  simp only [ofString] at hk
  split at hk <;> simp at hk

lemma ofNumber_inRange (text : List Char) (start : Nat) : (ofNumber text start).token.InRange := by
  intro s skim hk
  simp only [ofNumber] at hk
  split at hk
  · rename_i step hstep
    simp only [Kind.plain.injEq] at hk
    unfold Numeral.number at hk
    split at hk
    · rename_i number hnumber
      simp only [Except.map, Except.ok.injEq] at hk
      exact hk.1 ▸ Numeral.value?_inRange hnumber
    · simp [Except.map] at hk
  · simp at hk

lemma scan_inRange (first : Char) (text : List Char) (start : Nat) :
    (scan first text start).token.InRange := by
  unfold scan
  dsimp only
  split
  case h_7 => exact ofString_inRange text start
  case h_8 => exact ofWord_inRange (by trivial) _ _ _
  case h_9 => exact ofWord_inRange (by trivial) _ _ _
  case h_10 => exact ofWord_inRange (by trivial) _ _ _
  case h_11 =>
    split_ifs
    · exact ofNumber_inRange _ _
    · simp [InRange]
  all_goals simp [InRange]

theorem all_inRange (text : List Char) (offset : Nat) : ∀ token ∈ all text offset, token.InRange := by
  fun_induction all text offset with
  | case1 => simp
  | case2 offset c rest hspace ih => exact ih
  | case3 offset c rest hspace next ih =>
    exact List.forall_mem_cons.mpr ⟨scan_inRange c rest offset, ih⟩

end Token

/-! ### Outlines -/

namespace Outline

/-- An open container whose parts so far nest at most so deep. -/
def Open.Within (depth : Nat) : Open → Prop
  | .array _ items => ∀ n ∈ items, n.Within depth
  | .member _ members _ => ∀ m ∈ members, m.2.Within depth

/-- Open containers above which `room` more may be opened. -/
inductive StackWithin : Nat → List Open → Prop
  | nil : StackWithin maxDepth []
  | cons {room : Nat} {container : Open} {stack : List Open} (hc : container.Within room)
      (h : StackWithin (room + 1) stack) : StackWithin room (container :: stack)

/-- What has just been read nests at most as deep as the containers around it leave room. -/
def State.Within (room : Nat) : State → Prop
  | .value | .item _ => True
  | .key _ members _ | .colon _ members _ => ∃ r, room = r + 1 ∧ ∀ m ∈ members, m.2.Within r
  | .done node => node.Within room

lemma StackWithin.room_add_length {room : Nat} {stack : List Open} (h : StackWithin room stack) :
    room + stack.length = maxDepth := by
  induction h with
  | nil => rfl
  | cons hc h ih =>
    simp only [List.length_cons]
    omega

lemma Open.Within.breakAt {depth : Nat} {container : Open} (h : container.Within depth) {last : Node}
    (hl : last.Within depth) (fault : Fault) : (container.breakAt fault last).Within (depth + 1) := by
  cases container with
  | array start items =>
    refine .array (fun n hn => ?_) start _
    rcases List.mem_cons.mp (List.mem_reverse.mp hn) with rfl | hn
    · exact hl
    · exact h n hn
  | member start members key =>
    refine .object (fun m hm => ?_) start _
    rcases List.mem_cons.mp (List.mem_reverse.mp hm) with rfl | hm
    · exact hl
    · exact h m hm

lemma breakOff_within {room : Nat} {stack : List Open} (h : StackWithin room stack) {last : Node}
    (hl : last.Within room) (fault : Fault) :
    (Outline.breakOff fault stack last).root.Within maxDepth := by
  induction h generalizing last with
  | nil => exact hl
  | cons hc h ih => exact ih (hc.breakAt hl fault)

lemma State.breakOff_within {room : Nat} {stack : List Open} (h : StackWithin room stack)
    {state : State} (hs : state.Within room) (fault : Fault) :
    (state.breakOff fault stack).root.Within maxDepth := by
  cases state with
  | value | item => exact Outline.breakOff_within h (.broken fault) fault
  | key start members first =>
    obtain ⟨r, rfl, hm⟩ := hs
    exact Outline.breakOff_within h (.object (fun m h => hm m (List.mem_reverse.mp h)) start _) fault
  | colon start members key =>
    obtain ⟨r, rfl, hm⟩ := hs
    refine Outline.breakOff_within h (.object (fun m h => ?_) start _) fault
    rcases List.mem_cons.mp (List.mem_reverse.mp h) with rfl | h
    · exact .broken fault
    · exact hm m h
  | done node => exact Outline.breakOff_within h hs fault

lemma startValue_within {room : Nat} {stack stack' : List Open} (h : StackWithin room stack)
    {token : Token} (ht : token.InRange) {cause : Cause} {state' : State}
    (hstep : step.startValue token stack cause = .ok (stack', state')) :
    ∃ room', StackWithin room' stack' ∧ state'.Within room' := by
  have hroom := h.room_add_length
  unfold step.startValue at hstep
  split at hstep
  · obtain ⟨text, -, he⟩ := bind_eq_ok.mp hstep
    obtain ⟨rfl, rfl⟩ := Prod.mk.inj (pure_eq_ok.mp he)
    exact ⟨room, h, .scalar (by trivial) _⟩
  · rename_i read skim hkind
    obtain ⟨s, rfl, he⟩ := bind_eq_ok.mp hstep
    obtain ⟨rfl, rfl⟩ := Prod.mk.inj (pure_eq_ok.mp he)
    exact ⟨room, h, .scalar (ht s skim hkind) _⟩
  · split_ifs at hstep with hlt
    obtain ⟨rfl, rfl⟩ := Prod.mk.inj (Except.ok.inj hstep)
    obtain ⟨r, rfl⟩ : ∃ r, room = r + 1 := ⟨room - 1, by omega⟩
    exact ⟨r, .cons (by simp [Open.Within]) h, trivial⟩
  · split_ifs at hstep with hlt
    obtain ⟨rfl, rfl⟩ := Prod.mk.inj (Except.ok.inj hstep)
    obtain ⟨r, rfl⟩ : ∃ r, room = r + 1 := ⟨room - 1, by omega⟩
    exact ⟨r + 1, h, r, rfl, by simp⟩
  · cases hstep

/-- One token more keeps what is open and what was read within the room there is. -/
theorem step_within {room size : Nat} {stack stack' : List Open} (h : StackWithin room stack)
    {token : Token} (ht : token.InRange) {rest : List Token} {state state' : State}
    (hs : state.Within room) (hstep : step size token rest stack state = .ok (stack', state')) :
    ∃ room', StackWithin room' stack' ∧ state'.Within room' := by
  cases state with
  | value => exact startValue_within h ht hstep
  | item first =>
    simp only [step] at hstep
    split at hstep
    · obtain ⟨rfl, rfl⟩ := Prod.mk.inj (Except.ok.inj hstep)
      cases h with
      | cons hc h => exact ⟨_, h, .array (fun n hn => hc n (List.mem_reverse.mp hn)) _ _⟩
    · cases hstep
    · exact startValue_within h ht hstep
  | key start members first =>
    simp only [step] at hstep
    split at hstep
    · obtain ⟨name, -, he⟩ := bind_eq_ok.mp hstep
      obtain ⟨rfl, rfl⟩ := Prod.mk.inj (pure_eq_ok.mp he)
      exact ⟨room, h, hs⟩
    · obtain ⟨rfl, rfl⟩ := Prod.mk.inj (Except.ok.inj hstep)
      obtain ⟨r, rfl, hm⟩ := hs
      exact ⟨r + 1, h, .object (fun m hmem => hm m (List.mem_reverse.mp hmem)) _ _⟩
    · cases hstep
    · cases hstep
  | colon start members key =>
    simp only [step] at hstep
    split at hstep
    · obtain ⟨rfl, rfl⟩ := Prod.mk.inj (Except.ok.inj hstep)
      obtain ⟨r, rfl, hm⟩ := hs
      exact ⟨r, .cons hm h, trivial⟩
    · cases hstep
  | done node =>
    simp only [step] at hstep
    cases h with
    | nil => cases hstep
    | @cons _ container stack hc h =>
      cases container with
      | array start items =>
        have hall : ∀ n ∈ node :: items, n.Within room := List.forall_mem_cons.mpr ⟨hs, hc⟩
        simp only at hstep
        split at hstep
        · obtain ⟨rfl, rfl⟩ := Prod.mk.inj (Except.ok.inj hstep)
          exact ⟨room, .cons hall h, trivial⟩
        · obtain ⟨rfl, rfl⟩ := Prod.mk.inj (Except.ok.inj hstep)
          exact ⟨_, h, .array (fun n hn => hall n (List.mem_reverse.mp hn)) _ _⟩
        · cases hstep
      | member start members key =>
        have hall : ∀ m ∈ (key, node) :: members, m.2.Within room :=
          List.forall_mem_cons.mpr ⟨hs, hc⟩
        simp only at hstep
        split at hstep
        · obtain ⟨rfl, rfl⟩ := Prod.mk.inj (Except.ok.inj hstep)
          exact ⟨_, h, room, rfl, hall⟩
        · obtain ⟨rfl, rfl⟩ := Prod.mk.inj (Except.ok.inj hstep)
          exact ⟨_, h, .object (fun m hm => hall m (List.mem_reverse.mp hm)) _ _⟩
        · cases hstep

theorem ofTokens_within {size room : Nat} {tokens : List Token} {stack : List Open} {state : State}
    (ht : ∀ token ∈ tokens, token.InRange) (h : StackWithin room stack) (hs : state.Within room) :
    (ofTokens size tokens stack state).root.Within maxDepth := by
  induction tokens generalizing room stack state with
  | nil =>
    unfold ofTokens
    split
    · exact State.breakOff_within h hs _
    · rename_i node hend
      have hroom := h.room_add_length
      cases stack with
      | nil =>
        obtain rfl : room = maxDepth := by simpa using hroom
        exact hs
      | cons container stack => cases container <;> simp [State.atEnd] at hend
    · exact State.breakOff_within h hs _
  | cons token rest ih =>
    obtain ⟨htoken, hrest⟩ := List.forall_mem_cons.mp ht
    unfold ofTokens
    split
    · have hroom := h.room_add_length
      obtain rfl : room = maxDepth := by simpa using hroom
      exact hs
    · split
      · rename_i hstep
        obtain ⟨room', h', hs'⟩ := step_within h htoken hs hstep
        exact ih hrest h' hs'
      · exact State.breakOff_within h hs _

end Outline

theorem Document.root_within (text : List Char) : (Document.ofText text).root.Within Outline.maxDepth :=
  Outline.ofTokens_within (Token.all_inRange text 0) .nil trivial

end Retrace.Json
