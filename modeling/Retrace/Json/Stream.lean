import Retrace.Json.Skim

/-!
Reading a value whose kind is known from the tokens one after the other.
-/

namespace Retrace.Json

/-- Takes a value off the tokens of a text of a given size. -/
abbrev Stream (α : Type) := ReaderT Nat (StateT (List Token) (Except Fault)) α

namespace Stream

/-- The next token, which stays. -/
def peek : Stream (Option Token) := do return (← get).head?

def drop : Stream Unit := modify List.tail

/-- A fault at the end of the text. -/
def ended {α : Type} (cause : Cause) : Stream α := do throw (.after (← read) cause)

def unwanted {α : Type} (token : Token) (cause : Cause) : Stream α := throw (token.unwanted cause)

/-- A scalar of the wanted kind. -/
def scalar {α : Type} (wanted : String) (accept : Scalar → Option α) : Stream α := do
  match ← peek with
  | none => ended .endInValue
  | some token =>
    match token.kind with
    | .string text _ => take token ((← text) |> .string)
    | .plain scalar _ => take token (← scalar)
    | .openArray => throw (.after token.start (.wrongType .sequence wanted))
    | .openObject => throw (.after token.start (.wrongType .map wanted))
    | _ => unwanted token .expectedValue
where
  take (token : Token) (value : Scalar) : Stream α :=
    match accept value with
    | some result => do
      drop
      return result
    | none => throw (.after token.stop (.wrongType (.scalar value) wanted))

def boolean : Stream Bool :=
  scalar "a boolean" fun
    | .bool b => some b
    | _ => none

def text? : Scalar → Option String
  | .string s => some s
  | _ => none

def text : Stream String := scalar "a string" text?

def colon : Stream Unit := do
  match ← peek with
  | none => ended .endInObject
  | some token =>
    match token.kind with
    | .colon => drop
    | _ => unwanted token .expectedColon

/-- A string that is one of the known names. -/
def name (wanted : String) (known : List String) : Stream String := do
  let before ← peek
  let name ← scalar wanted text?
  if known.contains name then return name
  else throw (.after (before.elim 0 Token.stop) (.unknownName name known))

/-- The key that starts an object and is one of the known names. An object without any key lacks a
value, not a key. -/
def keyName (known : List String) : Stream String := do
  match ← peek with
  | none => ended .endInObject
  | some token =>
    match token.kind with
    | .string _ _ => name "variant identifier" known
    | .closeObject => unwanted token .expectedValue
    | _ => unwanted token .keyNotString

/-- One of the known names, alone or as the only key of an object, where `null` follows it. -/
def choice (known : List String) : Stream String := do
  match ← peek with
  | none => ended .endInValue
  | some token =>
    match token.kind with
    | .string _ _ => name "variant identifier" known
    | .openObject => do
      drop
      let name ← keyName known
      colon
      scalar "unit" fun
        | .null => some ()
        | _ => none
      match ← peek with
      | none => ended .endInObject
      | some token =>
        match token.kind with
        | .closeObject => do
          drop
          return name
        | _ => throw (.after token.start .expectedValue)
    | _ => unwanted token .expectedValue

def skip : Stream Unit := do
  let rest ← Skim.pass (← read) (← get) [] .value
  set rest

def run {α : Type} (stream : Stream α) (text : String) : Except Report α :=
  let chars := text.toList
  let result := do
    let (result, rest) ← stream (Literal.byteSize chars) (Token.all chars 0)
    match rest with
    | [] => return result
    | token :: _ => throw (token.unwanted .trailingCharacters)
  result.mapError (Report.ofFault chars)

end Stream
end Retrace.Json
