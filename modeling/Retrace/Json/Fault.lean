import Retrace.Json.Printer
import Retrace.Text.Quoted

/-!
What can be wrong with a text that should hold a certain value, and where. While a text is read a
place is a number of bytes; lines and columns are counted once, for the report.
-/

namespace Retrace.Json

/-- What stands where something else was wanted. -/
inductive Shape where
  | scalar (value : Scalar)
  | sequence
  | map
  deriving DecidableEq, Repr

def Shape.describe : Shape → String
  | .scalar .null => "null"
  | .scalar (.bool b) => "boolean `" ++ (if b then "true" else "false") ++ "`"
  | .scalar (.number (.whole i)) => "integer `" ++ toString i ++ "`"
  | .scalar (.number (.double x)) => "floating point `" ++ NumberStyle.json.text x ++ "`"
  | .scalar (.string s) => "string " ++ Text.quoted s
  | .sequence => "sequence"
  | .map => "map"

/-- Why a text does not read as the value it should hold. -/
inductive Cause where
  | endInValue
  | endInList
  | endInObject
  | endInString
  | expectedColon
  | expectedCommaOrBracket
  | expectedCommaOrBrace
  | expectedWord
  | expectedValue
  | keyNotString
  | trailingComma
  | trailingCharacters
  | invalidEscape
  | invalidNumber
  | numberOutOfRange
  | controlCharacter
  | loneSurrogate
  | unfinishedSurrogate
  | tooDeep
  | wrongType (found : Shape) (wanted : String)
  | wrongLength (length : Nat) (wanted : String)
  | unknownName (name : String) (known : List String)
  | missingField (name : String)
  | repeatedField (name : String)
  deriving DecidableEq, Repr

namespace Cause

/-- Names to choose from: two are joined by a word, more are listed. -/
def choices : List String → String
  | [a, b] => "`" ++ a ++ "` or `" ++ b ++ "`"
  | names => "one of " ++ ", ".intercalate (names.map fun n => "`" ++ n ++ "`")

def message : Cause → String
  | endInValue => "EOF while parsing a value"
  | endInList => "EOF while parsing a list"
  | endInObject => "EOF while parsing an object"
  | endInString => "EOF while parsing a string"
  | expectedColon => "expected `:`"
  | expectedCommaOrBracket => "expected `,` or `]`"
  | expectedCommaOrBrace => "expected `,` or `\x7d`"
  | expectedWord => "expected ident"
  | expectedValue => "expected value"
  | keyNotString => "key must be a string"
  | trailingComma => "trailing comma"
  | trailingCharacters => "trailing characters"
  | invalidEscape => "invalid escape"
  | invalidNumber => "invalid number"
  | numberOutOfRange => "number out of range"
  | controlCharacter => "control character (\\u0000-\\u001F) found while parsing a string"
  | loneSurrogate => "lone leading surrogate in hex escape"
  | unfinishedSurrogate => "unexpected end of hex escape"
  | tooDeep => "recursion limit exceeded"
  | wrongType found wanted => "invalid type: " ++ found.describe ++ ", expected " ++ wanted
  | wrongLength length wanted =>
    "invalid length " ++ toString length ++ ", expected " ++ wanted
  | unknownName name known => "unknown variant `" ++ name ++ "`, expected " ++ choices known
  | missingField name => "missing field `" ++ name ++ "`"
  | repeatedField name => "duplicate field `" ++ name ++ "`"

end Cause

/-- A cause and the number of bytes of the text before its place; some causes have no place. -/
structure Fault where
  cause : Cause
  offset : Option Nat
  deriving DecidableEq, Repr

namespace Fault

/-- A fault with `offset` bytes of the text before its place. -/
def after (offset : Nat) (cause : Cause) : Fault := ⟨cause, some offset⟩

end Fault

/-- A line of a text, counted from one, and a number of bytes on it. -/
structure Place where
  line : Nat
  column : Nat
  deriving DecidableEq, Repr

namespace Place

/-- The place after `offset` bytes of `text`, where `place` is the place before `text`. -/
def advance (place : Place) : (text : List Char) → (offset : Nat) → Place
  | [], _ => place
  | c :: rest, offset =>
    if offset < c.utf8Size then ⟨place.line, place.column + offset⟩
    else
      let next := if c = '\n' then ⟨place.line + 1, 0⟩ else ⟨place.line, place.column + c.utf8Size⟩
      advance next rest (offset - c.utf8Size)

def ofOffset (text : List Char) (offset : Nat) : Place := advance ⟨1, 0⟩ text offset

end Place

/-- A fault with its place in the text that was read. -/
structure Report where
  cause : Cause
  place : Option Place
  deriving DecidableEq, Repr

namespace Report

def ofFault (text : List Char) (fault : Fault) : Report :=
  ⟨fault.cause, fault.offset.map (Place.ofOffset text)⟩

def message (report : Report) : String :=
  match report.place with
  | none => report.cause.message
  | some p =>
    report.cause.message ++ " at line " ++ toString p.line ++ " column " ++ toString p.column

end Report
end Retrace.Json
