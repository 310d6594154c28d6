import Retrace.Json.Numeral

/-!
The tokens of a JSON text. A token knows the bytes before it and behind it. A string or a number is
read at once, and also judged as something nobody asked for, since a reader may pass over it.
-/

namespace Retrace.Json

/-- What a token is. `skim` is the fault met by a reader that passes over the token. -/
inductive Token.Kind where
  | openArray
  | closeArray
  | openObject
  | closeObject
  | comma
  | colon
  | string (read : Except Fault String) (skim : Option Fault)
  | plain (read : Except Fault Scalar) (skim : Option Fault)
  | stray

structure Token where
  start : Nat
  stop : Nat
  kind : Token.Kind

namespace Token

/-- The place where a token is reported that should not be there: after its first byte. -/
def peek (token : Token) : Nat := token.start + 1

/-- The fault of a token that should not be there. -/
def unwanted (token : Token) (cause : Cause) : Fault := .after token.peek cause

/-- Blanks of JSON, which are fewer than those of Unicode. -/
def isSpace (c : Char) : Bool := c == ' ' || c == '\n' || c == '\t' || c == '\r'

/-- The rest of a word, after its first letter. -/
def readWord (word : List Char) (text : List Char) (offset : Nat) : Except Fault (List Char) :=
  match word, text with
  | [], rest => .ok rest
  | _ :: _, [] => .error (.after offset .endInValue)
  | w :: word, c :: rest =>
    if w = c then readWord word rest (offset + 1) else .error (.after (offset + 1) .expectedWord)

theorem readWord_length {word text rest : List Char} {offset : Nat}
    (h : readWord word text offset = .ok rest) : rest.length ≤ text.length := by
  fun_induction readWord word text offset with
  | case1 => injection h with h; subst h; simp
  | case2 => cases h
  | case3 _ _ _ _ ih => have := ih h; simp only [List.length_cons]; omega
  | case4 => cases h

/-- A token and the characters after it; no characters where the reading cannot go on. -/
structure Next where
  token : Token
  rest : List Char

/-- The token of a word whose first letter has been read. -/
def ofWord (value : Scalar) (word : List Char) (text : List Char) (start : Nat) : Next :=
  match readWord word text (start + 1) with
  | .ok rest => ⟨⟨start, start + 1 + word.length, .plain (.ok value) none⟩, rest⟩
  | .error fault => ⟨⟨start, start + 1, .plain (.error fault) (some fault)⟩, []⟩

/-- The token of a string whose opening quote has been read. -/
def ofString (text : List Char) (start : Nat) : Next :=
  let read := (Literal.read [] text (start + 1)).map (·.value)
  match Literal.skip text (start + 1) with
  | .ok step => ⟨⟨start, step.offset, .string read none⟩, step.rest⟩
  | .error fault => ⟨⟨start, start + 1, .string read (some fault)⟩, []⟩

def ofNumber (text : List Char) (start : Nat) : Next :=
  match Numeral.read text start with
  | .ok step =>
    let read := (Numeral.number step.value step.offset).map Scalar.number
    ⟨⟨start, step.offset, .plain read none⟩, step.rest⟩
  | .error cut => ⟨⟨start, start + 1, .plain (.error cut.fault) (some cut.skipFault)⟩, []⟩

/-- The token that starts with `first`. -/
def scan (first : Char) (text : List Char) (start : Nat) : Next :=
  let mark (kind : Kind) : Next := ⟨⟨start, start + 1, kind⟩, text⟩
  match first with
  | '[' => mark .openArray
  | ']' => mark .closeArray
  | '\x7b' => mark .openObject
  | '\x7d' => mark .closeObject
  | ',' => mark .comma
  | ':' => mark .colon
  | '"' => ofString text start
  | 'n' => ofWord .null ['u', 'l', 'l'] text start
  | 't' => ofWord (.bool true) ['r', 'u', 'e'] text start
  | 'f' => ofWord (.bool false) ['a', 'l', 's', 'e'] text start
  | c =>
    if c == '-' || c.isDigit then ofNumber (c :: text) start
    else ⟨⟨start, start + c.utf8Size, .stray⟩, []⟩

theorem ofWord_length (value : Scalar) (word text : List Char) (start : Nat) :
    (ofWord value word text start).rest.length ≤ text.length := by
  unfold ofWord
  split
  · rename_i h
    exact readWord_length h
  · simp

theorem ofString_length (text : List Char) (start : Nat) :
    (ofString text start).rest.length ≤ text.length := by
  unfold ofString
  dsimp only
  split
  · rename_i h
    exact Nat.le_of_lt (Literal.skip_length h)
  · simp

theorem ofNumber_length (text : List Char) (start : Nat) :
    (ofNumber text start).rest.length ≤ text.length - 1 := by
  unfold ofNumber
  split
  · rename_i h
    have := Numeral.read_length h
    simp only
    omega
  · simp

theorem scan_length (first : Char) (text : List Char) (start : Nat) :
    (scan first text start).rest.length ≤ text.length := by
  unfold scan
  dsimp only
  split
  any_goals exact Nat.le_refl _
  · exact ofString_length text start
  · exact ofWord_length ..
  · exact ofWord_length ..
  · exact ofWord_length ..
  · split
    · exact ofNumber_length (first :: text) start
    · simp

/-- The tokens of a text with `offset` bytes before it, up to the first that ends all reading. -/
def all (text : List Char) (offset : Nat) : List Token :=
  match text with
  | [] => []
  | c :: rest =>
    if isSpace c then all rest (offset + 1)
    else
      let next := scan c rest offset
      next.token :: all next.rest next.token.stop
termination_by text.length
decreasing_by
  · simp
  · have := scan_length c rest offset
    simp only [List.length_cons]
    omega

end Token
end Retrace.Json
