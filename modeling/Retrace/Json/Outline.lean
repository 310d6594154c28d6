import Retrace.Json.Token

/-!
A JSON text as far as it can be read: its values up to the first fault, and there the fault itself, so that a
reader meets a value of the wrong type and a misspelled one in order.
-/

namespace Retrace.Json

/-- A key of an object; `mark` is the number of bytes before the place where it is reported. -/
structure Key where
  name : String
  mark : Nat
  deriving DecidableEq, Repr

/-- A value with the places a reader reports: behind a scalar, before a container, and behind one that is
closed, or the fault that ends it. -/
inductive Node where
  | scalar (value : Scalar) (stop : Nat)
  | array (start : Nat) (items : List Node) (stop : Except Fault Nat)
  | object (start : Nat) (members : List (Key × Node)) (stop : Except Fault Nat)
  | broken (fault : Fault)

namespace Node

mutual

/-- The value of an outline, or its first fault. Keys stay as often as they are written. -/
def value : Node → Except Fault Value
  | scalar s _ => .ok (.scalar s)
  | array _ items stop => do
    let items ← values items
    let _ ← stop
    return .array items
  | object _ members stop => do
    let members ← memberValues members
    let _ ← stop
    return .object members
  | broken fault => .error fault

def values : List Node → Except Fault (List Value)
  | [] => .ok []
  | node :: rest => do
    let value ← value node
    let rest ← values rest
    return value :: rest

def memberValues : List (Key × Node) → Except Fault (List (String × Value))
  | [] => .ok []
  | (key, node) :: rest => do
    let value ← value node
    let rest ← memberValues rest
    return (key.name, value) :: rest

end

/-- The fault of a value that is not of the wanted kind. -/
def mismatch (wanted : String) : Node → Fault
  | scalar s stop => .after stop (.wrongType (.scalar s) wanted)
  | array start _ _ => .after start (.wrongType .sequence wanted)
  | object start _ _ => .after start (.wrongType .map wanted)
  | broken fault => fault

/-- The members of an object, every key once. -/
def mergedMembers : Node → Except Fault Members
  | object _ members stop => do
    let members ← memberValues members
    let _ ← stop
    return Members.merge (Value.mergedMembers members)
  | other => .error (other.mismatch "a map")

end Node

/-- An outline and the fault of what follows the value, if anything does. -/
structure Document where
  root : Node
  trailing : Option Fault

namespace Outline

/-- At most this many containers lie in each other. -/
def maxDepth : Nat := 127

/-- A container whose end has not been seen, with its parts so far, last first. -/
inductive Open where
  | array (start : Nat) (items : List Node)
  | member (start : Nat) (members : List (Key × Node)) (key : Key)

/-- What has just been read, and so what may follow. -/
inductive State where
  | value
  | item (first : Bool)
  | key (start : Nat) (members : List (Key × Node)) (first : Bool)
  | colon (start : Nat) (members : List (Key × Node)) (key : Key)
  | done (node : Node)

/-- A container that a fault ends after its part `last`. -/
def Open.breakAt (fault : Fault) (last : Node) : Open → Node
  | array start items => .array start (last :: items).reverse (.error fault)
  | member start members key => .object start ((key, last) :: members).reverse (.error fault)

/-- The outline of a text that a fault ends inside the open containers. -/
def breakOff (fault : Fault) (stack : List Open) (last : Node) : Document :=
  ⟨stack.foldl (fun inner container => container.breakAt fault inner) last, none⟩

/-- The outline of a text that a fault ends in a given state. -/
def State.breakOff (fault : Fault) (stack : List Open) : State → Document
  | value | item _ => Outline.breakOff fault stack (.broken fault)
  | key start members _ =>
    Outline.breakOff fault stack (.object start members.reverse (.error fault))
  | colon start members label =>
    Outline.breakOff fault stack
      (.object start ((label, .broken fault) :: members).reverse (.error fault))
  | done node => Outline.breakOff fault stack node

/-- What is missing at the end of the text; nothing after a whole value. -/
def State.atEnd (stack : List Open) : State → Option Cause
  | value => some .endInValue
  | item first => some (if first then .endInList else .endInValue)
  | key _ _ first => some (if first then .endInObject else .endInValue)
  | colon _ _ _ => some .endInObject
  | done _ =>
    match stack with
    | [] => none
    | .array _ _ :: _ => some .endInList
    | .member _ _ _ :: _ => some .endInObject

/-- Where a key that is followed by `rest` is reported: at the next token, or behind the closing brace. -/
def markOf (size : Nat) (rest : List Token) : Nat :=
  match rest with
  | [] => size
  | next :: _ => match next.kind with
    | .closeObject => next.stop
    | _ => next.start

/-- One token more: the new open containers and state, or a fault. -/
def step (size : Nat) (token : Token) (rest : List Token) (stack : List Open) :
    State → Except Fault (List Open × State)
  | .value => startValue .expectedValue
  | .item first =>
    match token.kind, first, stack with
    | .closeArray, true, .array start items :: stack =>
      .ok (stack, .done (.array start items.reverse (.ok token.stop)))
    | .closeArray, _, _ => .error (token.unwanted .trailingComma)
    | _, _, _ => startValue .expectedValue
  | .key start members first =>
    match token.kind, first with
    | .string read _, _ => do
      let name ← read
      return (stack, .colon start members ⟨name, markOf size rest⟩)
    | .closeObject, true => .ok (stack, .done (.object start members.reverse (.ok token.stop)))
    | .closeObject, false => .error (token.unwanted .trailingComma)
    | _, _ => .error (token.unwanted .keyNotString)
  | .colon start members key =>
    match token.kind with
    | .colon => .ok (.member start members key :: stack, .value)
    | _ => .error (token.unwanted .expectedColon)
  | .done node =>
    match stack with
    | [] => .error (token.unwanted .trailingCharacters)
    | .array start items :: stack =>
      match token.kind with
      | .comma => .ok (.array start (node :: items) :: stack, .item false)
      | .closeArray => .ok (stack, .done (.array start (node :: items).reverse (.ok token.stop)))
      | _ => .error (token.unwanted .expectedCommaOrBracket)
    | .member start members key :: stack =>
      match token.kind with
      | .comma => .ok (stack, .key start ((key, node) :: members) false)
      | .closeObject =>
        .ok (stack, .done (.object start ((key, node) :: members).reverse (.ok token.stop)))
      | _ => .error (token.unwanted .expectedCommaOrBrace)
where
  /-- The first token of a value. -/
  startValue (cause : Cause) : Except Fault (List Open × State) :=
    match token.kind with
    | .string read _ => do
      let text ← read
      return (stack, .done (.scalar (.string text) token.stop))
    | .plain read _ => do
      let scalar ← read
      return (stack, .done (.scalar scalar token.stop))
    | .openArray =>
      if stack.length < maxDepth then .ok (.array token.start [] :: stack, .item true)
      else .error (token.unwanted .tooDeep)
    | .openObject =>
      if stack.length < maxDepth then .ok (stack, .key token.start [] true)
      else .error (token.unwanted .tooDeep)
    | _ => .error (token.unwanted cause)

/-- The outline of the tokens of a text of `size` bytes. -/
def ofTokens (size : Nat) : List Token → List Open → State → Document
  | [], stack, state =>
    match state.atEnd stack, state with
    | some cause, state => state.breakOff (.after size cause) stack
    | none, .done node => ⟨node, none⟩
    | none, state => state.breakOff (.after size .endInValue) stack
  | token :: rest, stack, state =>
    match stack, state with
    | [], .done node => ⟨node, some (token.unwanted .trailingCharacters)⟩
    | stack, state =>
      match step size token rest stack state with
      | .ok (stack, state) => ofTokens size rest stack state
      | .error fault => state.breakOff fault stack

end Outline

namespace Document

def ofText (text : List Char) : Document :=
  Outline.ofTokens (Literal.byteSize text) (Token.all text 0) [] .value

/-- What a reader makes of the value of a document, if nothing follows the value. -/
def read {α : Type} (document : Document) (reader : Node → Except Fault α) : Except Fault α := do
  let result ← reader document.root
  match document.trailing with
  | some fault => throw fault
  | none => return result

end Document

/-- Reads a text as one value; a fault is reported with its line and column. -/
def readText {α : Type} (reader : Node → Except Fault α) (text : String) : Except Report α :=
  ((Document.ofText text.toList).read reader).mapError (Report.ofFault text.toList)

/-- The value of a text, every key once. -/
def readValue (text : String) : Except Report Value :=
  readText (fun node => node.value.map Value.merged) text

/-- The members of a text that holds an object. -/
def readMembers (text : String) : Except Report Members := readText Node.mergedMembers text

end Retrace.Json
