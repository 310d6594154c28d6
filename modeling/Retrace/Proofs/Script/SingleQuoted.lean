import Mathlib.Tactic.Common
import Retrace.Json.Literal

/-! Single-quoted string literals, as JavaScript reads them. An escape gives fewer code units than it takes,
so a text between quotes means itself only if no escape is read in it. -/
namespace Retrace.SingleQuoted

/-- The code units of a code point. -/
def units (code : Nat) : List Nat :=
  if code < 0x10000 then [code]
  else [0xd800 + (code - 0x10000) / 0x400, 0xdc00 + (code - 0x10000) % 0x400]

/-- The code units of a text. -/
def valueOf (text : List Char) : List Nat := text.flatMap fun c => units c.toNat

/-- What ends a line of a script. -/
def isBreak (c : Char) : Bool := c == '\n' || c == '\r' || c == '\u2028' || c == '\u2029'

/-- What a letter stands for behind a backslash. -/
def letter : Char → Char
  | 'b' => '\x08'
  | 't' => '\t'
  | 'n' => '\n'
  | 'v' => '\x0b'
  | 'f' => '\x0c'
  | 'r' => '\r'
  | c => c

def hexNumber? (digits : List Char) : Option Nat :=
  digits.foldlM (fun n c => (Json.Literal.hexDigit? c).map (16 * n + ·)) 0

/-- As many hex digits as given, for one unit. -/
def hexEscape (count : Nat) (text : List Char) : Option (List Nat × List Char) :=
  if count ≤ text.length then
    (hexNumber? (text.take count)).map fun unit => ([unit], text.drop count)
  else none

/-- Hex digits up to a closing brace, for one code point. -/
def pointEscape (text : List Char) : Option (List Nat × List Char) :=
  let digits := text.takeWhile (· != '}')
  match text.dropWhile (· != '}') with
  | [] => none
  | _ :: rest =>
    if digits.isEmpty then none
    else (hexNumber? digits).bind fun code =>
      if code ≤ 0x10ffff then some (units code, rest) else none

def isOctal (c : Char) : Bool := '0' ≤ c && c ≤ '7'

/-- The octal digits of an escape after the first: up to two, as far as all fit eight bits. -/
def furtherOctal (digit : Char) (rest : List Char) : List Char :=
  (rest.take (if digit ≤ '3' then 2 else 1)).takeWhile isOctal

/-- An escape that starts with a digit. A strict script knows none but a zero that no digit follows. -/
def digitEscape (strict : Bool) (digit : Char) (rest : List Char) :
    Option (List Nat × List Char) :=
  if strict && (digit != '0' || rest.head?.any Char.isDigit) then none
  else if isOctal digit then
    let more := furtherOctal digit rest
    some ([Nat.ofDigitChars 8 (digit :: more) 0], rest.drop more.length)
  else some (units digit.toNat, rest)

/-- What an escape stands for and what is left behind it; its backslash has been read. A break that is
escaped stands for nothing. -/
def readEscape (strict : Bool) (text : List Char) : Option (List Nat × List Char) :=
  match text with
  | [] => none
  | '\r' :: '\n' :: rest => some ([], rest)
  | 'x' :: rest => hexEscape 2 rest
  | 'u' :: '{' :: rest => pointEscape rest
  | 'u' :: rest => hexEscape 4 rest
  | c :: rest =>
    if isBreak c then some ([], rest)
    else if c.isDigit then digitEscape strict c rest
    else some (units (letter c).toNat, rest)

/-! ### How much an escape takes -/

lemma length_units_pos (code : Nat) : 0 < (units code).length := by
  unfold units
  split_ifs <;> simp

lemma length_units_le (code : Nat) : (units code).length ≤ 2 := by
  unfold units
  split_ifs <;> simp

@[simp] lemma valueOf_nil : valueOf [] = [] := rfl

@[simp] lemma valueOf_cons (c : Char) (text : List Char) :
    valueOf (c :: text) = units c.toNat ++ valueOf text := List.flatMap_cons

@[simp] lemma valueOf_append (text more : List Char) :
    valueOf (text ++ more) = valueOf text ++ valueOf more := List.flatMap_append

lemma length_le_valueOf (text : List Char) : text.length ≤ (valueOf text).length := by
  induction text with
  | nil => exact Nat.le_refl 0
  | cons c rest ih =>
    have := length_units_pos c.toNat
    simp only [valueOf_cons, List.length_append, List.length_cons]
    omega

/-- What is taken gives at most the units that it has itself. -/
def Takes (text : List Char) (value : List Nat) (rest : List Char) : Prop :=
  ∃ taken, text = taken ++ rest ∧ value.length ≤ (valueOf taken).length

lemma Takes.of_length {text taken : List Char} {value : List Nat} {rest : List Char}
    (h : text = taken ++ rest) (hv : value.length ≤ taken.length) : Takes text value rest :=
  ⟨taken, h, Nat.le_trans hv (length_le_valueOf taken)⟩

lemma Takes.cons {text rest : List Char} {value : List Nat} (h : Takes text value rest) (c : Char) :
    Takes (c :: text) value rest := by
  obtain ⟨taken, rfl, hv⟩ := h
  refine ⟨c :: taken, rfl, ?_⟩
  simp only [valueOf_cons, List.length_append]
  omega

lemma takes_hexEscape {count : Nat} {text rest : List Char} {value : List Nat} (hcount : 0 < count)
    (h : hexEscape count text = some (value, rest)) : Takes text value rest := by
  unfold hexEscape at h
  split_ifs at h with hlen
  obtain ⟨unit, -, he⟩ := Option.map_eq_some_iff.mp h
  obtain ⟨rfl, rfl⟩ := Prod.mk.inj he
  apply Takes.of_length (List.take_append_drop count text).symm
  rw [List.length_take, Nat.min_eq_left hlen]
  exact hcount

lemma takes_pointEscape {text rest : List Char} {value : List Nat}
    (h : pointEscape text = some (value, rest)) : Takes text value rest := by
  unfold pointEscape at h
  dsimp only at h
  split at h
  · cases h
  · rename_i brace rest' hdrop
    split_ifs at h with hempty
    obtain ⟨code, -, he⟩ := Option.bind_eq_some_iff.mp h
    split_ifs at he
    obtain ⟨rfl, rfl⟩ := Prod.mk.inj (Option.some.inj he)
    have hsplit : text = (text.takeWhile (· != '}') ++ [brace]) ++ rest' := by
      rw [List.append_assoc, List.singleton_append, ← hdrop, List.takeWhile_append_dropWhile]
    apply Takes.of_length hsplit
    have hpos : 0 < (text.takeWhile (· != '}')).length := by
      simpa [List.length_pos_iff] using hempty
    have := length_units_le code
    simp only [List.length_append, List.length_singleton]
    omega

lemma takes_digitEscape {strict : Bool} {digit : Char} {text rest : List Char} {value : List Nat}
    (h : digitEscape strict digit text = some (value, rest)) : Takes (digit :: text) value rest := by
  unfold digitEscape at h
  split_ifs at h
  · obtain ⟨rfl, rfl⟩ := Prod.mk.inj (Option.some.inj h)
    have hprefix : furtherOctal digit text <+: text :=
      (List.takeWhile_prefix isOctal).trans (List.take_prefix _ text)
    have hsplit : digit :: text =
        (digit :: furtherOctal digit text) ++ text.drop (furtherOctal digit text).length :=
      congrArg (digit :: ·) (List.prefix_iff_eq_append.mp hprefix).symm
    exact .of_length hsplit (by simp)
  · obtain ⟨rfl, rfl⟩ := Prod.mk.inj (Option.some.inj h)
    exact ⟨[digit], rfl, by simp⟩

lemma length_units_letter (c : Char) : (units (letter c).toNat).length ≤ (units c.toNat).length := by
  unfold letter
  split <;> exact Nat.le_refl _

theorem takes_readEscape {strict : Bool} {text rest : List Char} {value : List Nat}
    (h : readEscape strict text = some (value, rest)) : Takes text value rest := by
  unfold readEscape at h
  split at h
  · cases h
  · obtain ⟨rfl, rfl⟩ := Prod.mk.inj (Option.some.inj h)
    exact ⟨['\r', '\n'], rfl, Nat.zero_le _⟩
  · exact (takes_hexEscape (by decide) h).cons 'x'
  · exact ((takes_pointEscape h).cons '{').cons 'u'
  · exact (takes_hexEscape (by decide) h).cons 'u'
  · rename_i c more _ _ _ _
    split_ifs at h
    · obtain ⟨rfl, rfl⟩ := Prod.mk.inj (Option.some.inj h)
      exact ⟨[c], rfl, Nat.zero_le _⟩
    · exact takes_digitEscape h
    · obtain ⟨rfl, rfl⟩ := Prod.mk.inj (Option.some.inj h)
      refine ⟨[c], rfl, ?_⟩
      simpa using length_units_letter c

/-! ### Literals -/

/-- Reads up to the closing quote. -/
def readBody (strict : Bool) (text : List Char) : Option (List Nat × List Char) :=
  match text with
  | [] => none
  | '\'' :: rest => some ([], rest)
  | '\\' :: rest =>
    match _h : readEscape strict rest with
    | none => none
    | some (value, rest) => (readBody strict rest).map fun (more, rest) => (value ++ more, rest)
  | c :: rest =>
    if c = '\n' ∨ c = '\r' then none
    else (readBody strict rest).map fun (more, rest) => (units c.toNat ++ more, rest)
termination_by text.length
decreasing_by
  · obtain ⟨taken, rfl, -⟩ := takes_readEscape _h
    simp only [List.length_cons, List.length_append]
    omega
  · simp

/-- Reads a literal: its value, and what is left behind the closing quote. -/
def read (strict : Bool) : List Char → Option (List Nat × List Char)
  | '\'' :: text => readBody strict text
  | _ => none

/-- A text without quotes, backslashes and breaks; the two separators of Unicode may stand in a literal. -/
def Plain (text : List Char) : Prop :=
  ∀ c ∈ text, c ≠ '\'' ∧ c ≠ '\\' ∧ c ≠ '\n' ∧ c ≠ '\r'

instance (text : List Char) : Decidable (Plain text) :=
  List.decidableBAll _ text

lemma plain_cons {c : Char} {text : List Char} :
    Plain (c :: text) ↔ (c ≠ '\'' ∧ c ≠ '\\' ∧ c ≠ '\n' ∧ c ≠ '\r') ∧ Plain text :=
  List.forall_mem_cons

theorem readBody_plain (strict : Bool) {text : List Char} (h : Plain text) (rest : List Char) :
    readBody strict (text ++ '\'' :: rest) = some (valueOf text, rest) := by
  induction text with
  | nil =>
    rw [List.nil_append, readBody]
    rfl
  | cons c text ih =>
    obtain ⟨⟨hquote, hslash, hbreak, hreturn⟩, htext⟩ := plain_cons.mp h
    rw [List.cons_append, readBody]
    · rw [if_neg (by simp [hbreak, hreturn]), ih htext]
      rfl
    · exact hquote
    · exact hslash

/-- What stands between the quotes has at least the units of the value, and only as many where it is plain. -/
theorem length_of_readBody {strict : Bool} {text rest : List Char} {value : List Nat}
    (h : readBody strict text = some (value, rest)) : ∃ body, text = body ++ '\'' :: rest ∧
      value.length ≤ (valueOf body).length ∧
      (value.length = (valueOf body).length → Plain body) := by
  fun_induction readBody strict text generalizing value rest with
  | case1 => cases h
  | case2 rest' =>
    obtain ⟨rfl, rfl⟩ := Prod.mk.inj (Option.some.inj h)
    exact ⟨[], rfl, Nat.le_refl 0, fun _ c hc => absurd hc List.not_mem_nil⟩
  | case3 => cases h
  | case4 text' value' rest' hescape ih =>
    obtain ⟨⟨more, last⟩, hmore, he⟩ := Option.map_eq_some_iff.mp h
    obtain ⟨rfl, rfl⟩ := Prod.mk.inj he
    obtain ⟨body, rfl, hle, -⟩ := ih hmore
    obtain ⟨taken, rfl, hvalue⟩ := takes_readEscape hescape
    have hslash : (valueOf ('\\' :: (taken ++ body))).length =
        1 + ((valueOf taken).length + (valueOf body).length) := by
      rw [valueOf_cons, valueOf_append, List.length_append, List.length_append]
      rfl
    refine ⟨'\\' :: (taken ++ body), by simp, ?_, ?_⟩
    · rw [hslash, List.length_append]
      omega
    · intro heq
      rw [hslash, List.length_append] at heq
      omega
  | case5 => cases h
  | case6 c rest' hquote hslash hbreak ih =>
    obtain ⟨⟨more, last⟩, hmore, he⟩ := Option.map_eq_some_iff.mp h
    obtain ⟨rfl, rfl⟩ := Prod.mk.inj he
    obtain ⟨body, rfl, hle, hplain⟩ := ih hmore
    obtain ⟨hline, hreturn⟩ := not_or.mp hbreak
    refine ⟨c :: body, rfl, ?_, ?_⟩
    · rw [valueOf_cons, List.length_append, List.length_append]
      omega
    · intro heq
      rw [valueOf_cons, List.length_append, List.length_append] at heq
      exact plain_cons.mpr ⟨⟨hquote, hslash, hline, hreturn⟩, hplain (by omega)⟩

/-- A text between quotes is read as itself, with what follows left, exactly where it is plain. -/
theorem read_quoted_iff (strict : Bool) (text rest : List Char) :
    read strict ('\'' :: (text ++ '\'' :: rest)) = some (valueOf text, rest) ↔ Plain text := by
  constructor
  · intro h
    obtain ⟨body, he, -, hplain⟩ := length_of_readBody h
    obtain rfl : text = body := List.append_cancel_right he
    exact hplain rfl
  · intro h
    exact readBody_plain strict h rest

end Retrace.SingleQuoted
