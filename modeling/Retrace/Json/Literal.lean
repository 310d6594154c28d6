import Retrace.Json.Fault

/-!
The characters between the quotes of a JSON string. `Literal.read` gives the text they stand for;
`Literal.skip` only looks for the closing quote, and asks less of what it passes.
-/

namespace Retrace.Json.Literal

/-- A result, the characters after it and the number of bytes before them. -/
structure Step (α : Type) where
  value : α
  rest : List Char
  offset : Nat

def hexDigit? (c : Char) : Option Nat :=
  if '0' ≤ c && c ≤ '9' then some (c.toNat - '0'.toNat)
  else if 'a' ≤ c && c ≤ 'f' then some (c.toNat - 'a'.toNat + 10)
  else if 'A' ≤ c && c ≤ 'F' then some (c.toNat - 'A'.toNat + 10)
  else none

def hexValue? (a b c d : Char) : Option Nat := do
  let a ← hexDigit? a
  let b ← hexDigit? b
  let c ← hexDigit? c
  let d ← hexDigit? d
  return ((a * 16 + b) * 16 + c) * 16 + d

/-- The number of bytes of a text in UTF-8. -/
def byteSize (text : List Char) : Nat := text.foldl (fun size c => size + c.utf8Size) 0

/-- Four hex digits. Four bytes are looked at before any of them is judged. -/
def hexCode (text : List Char) (offset : Nat) : Except Fault (Step Nat) :=
  match text with
  | a :: b :: c :: d :: rest =>
    match hexValue? a b c d with
    | some n => .ok ⟨n, rest, offset + 4⟩
    | none => .error (.after (offset + 4) .invalidEscape)
  | short =>
    let left := byteSize short
    if left < 4 then .error (.after (offset + left) .endInString)
    else .error (.after (offset + 4) .invalidEscape)

def isLeading (n : Nat) : Bool := 0xd800 ≤ n && n < 0xdc00

def isTrailing (n : Nat) : Bool := 0xdc00 ≤ n && n < 0xe000

/-- The second half of a character beyond the basic plane, after its first half `leading`. -/
def trailingHalf (leading : Nat) (text : List Char) (offset : Nat) : Except Fault (Step Char) :=
  match text with
  | [] => .error (.after offset .endInString)
  | '\\' :: [] => .error (.after (offset + 1) .endInString)
  | '\\' :: 'u' :: rest => do
    let half ← hexCode rest (offset + 2)
    if isTrailing half.value then
      let code := (leading - 0xd800) * 0x400 + (half.value - 0xdc00) + 0x10000
      return ⟨Char.ofNat code, half.rest, half.offset⟩
    else throw (.after half.offset .loneSurrogate)
  | '\\' :: _ => .error (.after (offset + 2) .unfinishedSurrogate)
  | _ => .error (.after (offset + 1) .unfinishedSurrogate)

/-- The character that an escape of one letter stands for. -/
def letterEscape? : Char → Option Char
  | '"' => some '"'
  | '\\' => some '\\'
  | '/' => some '/'
  | 'b' => some '\x08'
  | 'f' => some '\x0c'
  | 'n' => some '\n'
  | 'r' => some '\r'
  | 't' => some '\t'
  | _ => none

/-- The character of an escape, whose backslash has been read. -/
def readEscape (text : List Char) (offset : Nat) : Except Fault (Step Char) :=
  match text with
  | [] => .error (.after offset .endInString)
  | 'u' :: rest => do
    let code ← hexCode rest (offset + 1)
    if isTrailing code.value then throw (.after code.offset .loneSurrogate)
    else if isLeading code.value then trailingHalf code.value code.rest code.offset
    else return ⟨Char.ofNat code.value, code.rest, code.offset⟩
  | c :: rest =>
    match letterEscape? c with
    | some value => .ok ⟨value, rest, offset + 1⟩
    | none => .error (.after (offset + 1) .invalidEscape)

/-- Passes an escape, whose backslash has been read; halves of characters may stand alone. -/
def skipEscape (text : List Char) (offset : Nat) : Except Fault (Step Unit) :=
  match text with
  | [] => .error (.after offset .endInString)
  | 'u' :: rest => do
    let code ← hexCode rest (offset + 1)
    return ⟨(), code.rest, code.offset⟩
  | c :: rest =>
    if (letterEscape? c).isSome then .ok ⟨(), rest, offset + 1⟩
    else .error (.after (offset + 1) .invalidEscape)

theorem hexCode_length {text : List Char} {offset : Nat} {step : Step Nat}
    (h : hexCode text offset = .ok step) : step.rest.length < text.length := by
  unfold hexCode at h
  split at h
  · split at h
    · injection h with h
      subst h
      simp only [List.length_cons]
      omega
    · cases h
  · dsimp only at h
    split at h <;> cases h

theorem trailingHalf_length {leading : Nat} {text : List Char} {offset : Nat} {step : Step Char}
    (h : trailingHalf leading text offset = .ok step) : step.rest.length < text.length := by
  unfold trailingHalf at h
  split at h
  case h_3 rest =>
    cases hc : hexCode rest (offset + 2) with
    | error e => simp [hc, bind, Except.bind] at h
    | ok half =>
      have := hexCode_length hc
      simp only [hc, bind, Except.bind] at h
      split at h
      · injection h with h
        subst h
        simp only [List.length_cons]
        omega
      · cases h
  all_goals cases h

theorem readEscape_length {text : List Char} {offset : Nat} {step : Step Char}
    (h : readEscape text offset = .ok step) : step.rest.length < text.length := by
  unfold readEscape at h
  split at h
  · cases h
  · rename_i rest
    cases hc : hexCode rest (offset + 1) with
    | error e => simp [hc, bind, Except.bind] at h
    | ok code =>
      have := hexCode_length hc
      simp only [hc, bind, Except.bind] at h
      split at h
      · cases h
      · split at h
        · have := trailingHalf_length h
          simp only [List.length_cons]
          omega
        · injection h with h
          subst h
          simp only [List.length_cons]
          omega
  · split at h
    · injection h with h
      subst h
      simp
    · cases h

theorem skipEscape_length {text : List Char} {offset : Nat} {step : Step Unit}
    (h : skipEscape text offset = .ok step) : step.rest.length < text.length := by
  unfold skipEscape at h
  split at h
  · cases h
  · rename_i rest
    cases hc : hexCode rest (offset + 1) with
    | error e => simp [hc, bind, Except.bind] at h
    | ok code =>
      have := hexCode_length hc
      simp only [hc, bind, Except.bind] at h
      injection h with h
      subst h
      simp only [List.length_cons]
      omega
  · split at h
    · injection h with h
      subst h
      simp
    · cases h

/-- Reads up to the closing quote; `done` holds the characters read so far, last first. -/
def read (done : List Char) (text : List Char) (offset : Nat) : Except Fault (Step String) :=
  match text with
  | [] => .error (.after offset .endInString)
  | '"' :: rest => .ok ⟨String.ofList done.reverse, rest, offset + 1⟩
  | '\\' :: rest =>
    match _h : readEscape rest (offset + 1) with
    | .error fault => .error fault
    | .ok step => read (step.value :: done) step.rest step.offset
  | c :: rest =>
    if c.toNat < 32 then .error (.after (offset + 1) .controlCharacter)
    else read (c :: done) rest (offset + c.utf8Size)
termination_by text.length
decreasing_by
  · have := readEscape_length _h
    simp only [List.length_cons]
    omega
  · simp

/-- Passes a string up to its closing quote. A control character is reported before it. -/
def skip (text : List Char) (offset : Nat) : Except Fault (Step Unit) :=
  match text with
  | [] => .error (.after offset .endInString)
  | '"' :: rest => .ok ⟨(), rest, offset + 1⟩
  | '\\' :: rest =>
    match _h : skipEscape rest (offset + 1) with
    | .error fault => .error fault
    | .ok step => skip step.rest step.offset
  | c :: rest =>
    if c.toNat < 32 then .error (.after offset .controlCharacter)
    else skip rest (offset + c.utf8Size)
termination_by text.length
decreasing_by
  · have := skipEscape_length _h
    simp only [List.length_cons]
    omega
  · simp

theorem skip_length {text : List Char} {offset : Nat} {step : Step Unit}
    (h : skip text offset = .ok step) : step.rest.length < text.length := by
  fun_induction skip text offset with
  | case1 => cases h
  | case2 offset rest =>
    injection h with h
    subst h
    simp
  | case3 => cases h
  | case4 offset rest step' hs ih =>
    have := ih h
    have := skipEscape_length hs
    simp only [List.length_cons]
    omega
  | case5 => cases h
  | case6 offset c rest _ _ _ ih =>
    have := ih h
    simp only [List.length_cons]
    omega

end Retrace.Json.Literal
