import Retrace.Options
import Retrace.Json.Outline

/-!
Reading options: an object, whose unknown keys are passed over, or an array of the values in the
order of the fields. What is not given has its default.
-/

namespace Retrace.Options

open Json (Stream Token Fault)

/-- The options given so far. -/
structure Given where
  wrapDescribe : Option Bool := none
  blankLines : Option Bool := none
  dataAttribute : Option String := none
  declareFrames : Option Bool := none
  blankLineStyle : Option BlankLineStyle := none

def Given.options (given : Given) : Options where
  wrapDescribe := given.wrapDescribe.getD true
  blankLines := given.blankLines.getD true
  dataAttribute := given.dataAttribute.getD ""
  declareFrames := given.declareFrames.getD true
  blankLineStyle := given.blankLineStyle.getD .joined

def readStyle : Stream BlankLineStyle :=
  BlankLineStyle.ofName <$> Stream.choice BlankLineStyle.names

/-- A field of the options: whether it was given, and how its value is read. -/
def field? (given : Given) : String → Option (Bool × Stream Given)
  | "wrapDescribe" => some (given.wrapDescribe.isSome, do
      return { given with wrapDescribe := some (← Stream.boolean) })
  | "blankLinesBetweenBlocks" => some (given.blankLines.isSome, do
      return { given with blankLines := some (← Stream.boolean) })
  | "dataAttribute" => some (given.dataAttribute.isSome, do
      return { given with dataAttribute := some (← Stream.text) })
  | "declareFrames" => some (given.declareFrames.isSome, do
      return { given with declareFrames := some (← Stream.boolean) })
  | "blankLineStyle" => some (given.blankLineStyle.isSome, do
      return { given with blankLineStyle := some (← readStyle) })
  | _ => none

/-- The value of a member whose key has just been read. -/
def readMember (given : Given) (key : String) : Stream Given := do
  match field? given key with
  | some (true, _) =>
    throw (.after (Json.Outline.markOf (← read) (← get)) (.repeatedField key))
  | some (false, value) => do
    Stream.colon
    value
  | none => do
    Stream.colon
    Stream.skip
    return given

/-- Reads the next key, or the brace that ends the object. -/
def readKey (first : Bool) : Stream (Option String) := do
  match ← Stream.peek with
  | none => Stream.ended .endInObject
  | some token =>
    match token.kind, first with
    | .closeObject, _ => do
      Stream.drop
      return none
    | .comma, false => do
      Stream.drop
      match ← Stream.peek with
      | none => Stream.ended .endInValue
      | some token =>
        match token.kind with
        | .string text _ => do
          let key ← text
          Stream.drop
          return some key
        | .closeObject => Stream.unwanted token .trailingComma
        | _ => Stream.unwanted token .keyNotString
    | .string text _, true => do
      let key ← text
      Stream.drop
      return some key
    | _, true => Stream.unwanted token .keyNotString
    | _, false => Stream.unwanted token .expectedCommaOrBrace

/-- Reads members up to the end of the object; `fuel` bounds their number. -/
def readMembers (given : Given) (first : Bool) : (fuel : Nat) → Stream Given
  | 0 => Stream.ended .endInObject
  | fuel + 1 => do
    match ← readKey first with
    | none => return given
    | some key => do
      let given ← readMember given key
      readMembers given false fuel

/-- Whether the array goes on with an element, and the comma before it is dropped. -/
def hasElement (first : Bool) : Stream Bool := do
  match ← Stream.peek with
  | none => Stream.ended .endInList
  | some token =>
    match token.kind, first with
    | .closeArray, _ => return false
    | _, true => return true
    | .comma, false => do
      Stream.drop
      match ← Stream.peek with
      | none => Stream.ended .endInValue
      | some token =>
        match token.kind with
        | .closeArray => Stream.unwanted token .trailingComma
        | _ => return true
    | _, false => Stream.unwanted token .expectedCommaOrBracket

/-- An element, if there is one more. -/
def readElement {α : Type} (first : Bool) (value : Stream α) : Stream (Option α) := do
  if ← hasElement first then some <$> value else return none

def readClose : Stream Unit := do
  match ← Stream.peek with
  | none => Stream.ended .endInList
  | some token =>
    match token.kind with
    | .closeArray => Stream.drop
    | .comma => do
      Stream.drop
      match ← Stream.peek with
      | none => Stream.ended .trailingCharacters
      | some token =>
        match token.kind with
        | .closeArray => Stream.unwanted token .trailingComma
        | _ => Stream.unwanted token .trailingCharacters
    | _ => Stream.unwanted token .trailingCharacters

def readElements : Stream Given := do
  let wrapDescribe ← readElement true Stream.boolean
  let blankLines ← readElement false Stream.boolean
  let dataAttribute ← readElement false Stream.text
  let declareFrames ← readElement false Stream.boolean
  let blankLineStyle ← readElement false readStyle
  readClose
  return ⟨wrapDescribe, blankLines, dataAttribute, declareFrames, blankLineStyle⟩

def readGiven : Stream Given := do
  match (← Stream.peek).map Token.kind with
  | some .openObject => do
    Stream.drop
    readMembers {} true (← get).length
  | some .openArray => do
    Stream.drop
    readElements
  | _ => Stream.scalar "struct GeneratorOptions" fun _ => none

/-- Reads a text that holds options. -/
def readText (text : String) : Except Json.Report Options :=
  Stream.run (Given.options <$> readGiven) text

end Retrace.Options
