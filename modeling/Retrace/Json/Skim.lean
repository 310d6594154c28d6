import Retrace.Json.Token

/-!
Passing over a value nobody asked for. Its grammar is checked and nothing else: containers may lie
in each other to any depth, and numbers and characters need not exist.
-/

namespace Retrace.Json.Skim

/-- A container that has not ended. -/
inductive Container where
  | array
  | object
  deriving DecidableEq, Repr

/-- What may come next: a value, the first part of a container, a key, a colon, or what follows a
value inside a container. -/
inductive State where
  | value
  | first
  | key
  | colon
  | next
  deriving DecidableEq, Repr

def Container.endCause : Container → Cause
  | .array => .endInList
  | .object => .endInObject

def Container.partCause : Container → Cause
  | .array => .expectedCommaOrBracket
  | .object => .expectedCommaOrBrace

def Container.closes : Container → Token.Kind → Bool
  | .array, .closeArray => true
  | .object, .closeObject => true
  | _, _ => false

/-- What is missing at the end of the text. -/
def State.endCause (stack : List Container) : State → Cause
  | .value => .endInValue
  | .key | .colon => .endInObject
  | .first | .next => (stack.head?.map Container.endCause).getD .endInValue

/-- A value, or the start of one: the open containers and the state after it. -/
def startValue (token : Token) (stack : List Container) :
    Except Fault (List Container × State) :=
  match token.kind with
  | .string _ none | .plain _ none => .ok (stack, .next)
  | .string _ (some fault) | .plain _ (some fault) => .error fault
  | .openArray => .ok (.array :: stack, .first)
  | .openObject => .ok (.object :: stack, .first)
  | _ => .error (token.unwanted .expectedValue)

def readKey (token : Token) (stack : List Container) : Except Fault (List Container × State) :=
  match token.kind with
  | .string _ none => .ok (stack, .colon)
  | .string _ (some fault) => .error fault
  | _ => .error (token.unwanted .keyNotString)

/-- One token more. -/
def step (token : Token) (stack : List Container) : State → Except Fault (List Container × State)
  | .value => startValue token stack
  | .key => readKey token stack
  | .colon => match token.kind with
    | .colon => .ok (stack, .value)
    | _ => .error (token.unwanted .expectedColon)
  | .first => match stack with
    | [] => startValue token stack
    | container :: outer =>
      if container.closes token.kind then .ok (outer, .next)
      else match container with
        | .array => startValue token stack
        | .object => readKey token stack
  | .next => match stack with
    | [] => .ok (stack, .next)
    | container :: outer =>
      if container.closes token.kind then .ok (outer, .next)
      else match token.kind, container with
        | .comma, .array => .ok (stack, .value)
        | .comma, .object => .ok (stack, .key)
        | _, _ => .error (token.unwanted container.partCause)

/-- The tokens after the value. -/
def pass (size : Nat) : List Token → List Container → State → Except Fault (List Token)
  | [], [], .next => .ok []
  | [], stack, state => .error (.after size (state.endCause stack))
  | token :: rest, [], .next => .ok (token :: rest)
  | token :: rest, stack, state =>
    match step token stack state with
    | .ok (stack, state) => pass size rest stack state
    | .error fault => .error fault

end Retrace.Json.Skim
