import Retrace.Json.Outline
import Retrace.Recording.Event
import Retrace.Recording.Field

/-!
Reading recordings. The frame of an event is read where it stands. All other members are kept until the object
ends, and only then is the action looked for and its fields are read.
-/

namespace Retrace

open Json (Value Scalar Members Cause Fault Node Key)

/-- What is wrong with a value that should be of another kind. -/
def wrongValue (wanted : String) : Value → Cause
  | .scalar s => .wrongType (.scalar s) wanted
  | .array _ => .wrongType .sequence wanted
  | .object _ => .wrongType .map wanted

/-- What an action or entry written as an array should hold. -/
def elementsWanted (count : Nat) : String :=
  toString count ++ (if count = 1 then " element" else " elements") ++ " in sequence"

/-- The members with the given names; none of these names may occur twice. -/
def ownMembers (names : List String) (members : Members) : Except Cause Members :=
  go [] members
where
  go (seen : List String) : Members → Except Cause Members
    | [] => .ok []
    | (key, value) :: rest =>
      if names.contains key then
        if seen.contains key then .error (.repeatedField key)
        else (go (key :: seen) rest).map ((key, value) :: ·)
      else go seen rest

/-- A loose text among members. -/
def Field.textAt (key : String) (members : Members) : Option String :=
  (members.lookup key).bind Field.text

namespace ViewportSize

def ofValue? : Value → Except Cause (Option ViewportSize)
  | .scalar .null => .ok none
  | .object members => do
    let own ← ownMembers ["width", "height"] members
    return some ⟨(own.lookup "width").bind Field.number, (own.lookup "height").bind Field.number⟩
  | .array items =>
    if 2 < items.length then .error (.wrongLength items.length (elementsWanted 2))
    else .ok (some ⟨items[0]?.bind Field.number, items[1]?.bind Field.number⟩)
  | other => .error (wrongValue "struct ViewportSize" other)

end ViewportSize

namespace CookieEntry

def ofValue : Value → Except Cause CookieEntry
  | .object members => do
    let own ← ownMembers ["name", "value"] members
    let others := members.filter fun m => m.1 != "name" && m.1 != "value"
    return ⟨Field.textAt "name" own, Field.textAt "value" own,
      Members.merge (Value.mergedMembers others)⟩
  | other => .error (wrongValue "struct CookieEntry" other)

/-- A list of cookies, none for `null`. -/
def listOfValue? : Value → Except Cause (Option (List CookieEntry))
  | .scalar .null => .ok none
  | .array items => some <$> items.mapM ofValue
  | other => .error (wrongValue "a sequence" other)

end CookieEntry

namespace StorageEntry

def ofValue : Value → Except Cause StorageEntry
  | .object members => do
    let own ← ownMembers ["name", "value"] members
    return ⟨Field.textAt "name" own, Field.textAt "value" own⟩
  | .array items =>
    if 2 < items.length then .error (.wrongLength items.length (elementsWanted 2))
    else .ok ⟨items[0]?.bind Field.text, items[1]?.bind Field.text⟩
  | other => .error (wrongValue "struct StorageEntry" other)

/-- A list of storage entries, none for `null`. -/
def listOfValue? : Value → Except Cause (Option (List StorageEntry))
  | .scalar .null => .ok none
  | .array items => some <$> items.mapM ofValue
  | other => .error (wrongValue "a sequence" other)

end StorageEntry

namespace Action

/-- A kind is a word, or the number of a kind. -/
def Kind.ofValue : Value → Except Cause Kind
  | .scalar (.string name) => .ok (.ofName name)
  | .scalar (.number (.whole (.ofNat index))) => .ok (.ofIndex index)
  | other => .error (wrongValue "variant identifier" other)

/-- The one field that is a container, read at its first place before a second is refused. -/
def containerField {α : Type} (name : String) (read : Value → Except Cause (Option α))
    (members : Members) : Except Cause (Option α) := do
  let result ← read ((members.lookup name).getD .null)
  let _ ← ownMembers [name] members
  return result

/-- An action of a known kind from its fields; members that are no fields of it do not matter. -/
def ofMembers (kind : Kind) (members : Members) : Except Cause Action :=
  match kind with
  | .click => do
    let own ← ownMembers ["selector"] members
    return click (Field.textAt "selector" own)
  | .change => do
    let own ← ownMembers ["selector", "value", "tagName", "targetType"] members
    return change (Field.textAt "selector" own) (Field.textAt "value" own)
      (Field.textAt "tagName" own) (Field.textAt "targetType" own)
  | .keydown => do
    let own ← ownMembers ["selector", "value", "keyCode"] members
    return keydown (Field.textAt "selector" own) (Field.textAt "value" own)
      ((own.lookup "keyCode").bind Field.whole)
  | .visit => do
    let own ← ownMembers ["href"] members
    return visit (Field.textAt "href" own)
  | .viewport => viewport <$> containerField "value" ViewportSize.ofValue? members
  | .navigation => do
    let own ← ownMembers ["href"] members
    return navigation (Field.textAt "href" own)
  | .cookie => cookie <$> containerField "cookies" CookieEntry.listOfValue? members
  | .storage => storage <$> containerField "value" StorageEntry.listOfValue? members
  | .unknown => .ok unknown

/-- The kind named by the members, and the members that do not name it. -/
def splitKind (members : Members) : Except Cause (Kind × Members) :=
  match members.filter (·.1 == "action") with
  | [] => .error (.missingField "action")
  | (_, value) :: more => do
    let kind ← Kind.ofValue value
    if more.isEmpty then return (kind, members.filter (·.1 != "action"))
    else throw (.repeatedField "action")

/-- The action among the members of an event. -/
def ofEventMembers (members : Members) : Except Cause Action := do
  let (kind, fields) ← splitKind members
  ofMembers kind fields

end Action

namespace Event

/-- What has been read of an event inside its object; a frame field that was seen may be missing
all the same. -/
structure Partial where
  frameId : Option (Option FrameId)
  frameUrl : Option (Option String)
  /-- The other members, last first. -/
  others : Members

/-- Reads the members of an event in their order. -/
def gather (seen : Partial) : List (Key × Node) → Except Fault Partial
  | [] => .ok seen
  | (key, node) :: rest => do
    if key.name = "frameId" then
      if seen.frameId.isSome then throw (.after key.mark (.repeatedField key.name))
      else
        let value ← node.value
        gather { seen with frameId := some (Field.whole value) } rest
    else if key.name = "frameUrl" then
      if seen.frameUrl.isSome then throw (.after key.mark (.repeatedField key.name))
      else
        let value ← node.value
        gather { seen with frameUrl := some (Field.text value) } rest
    else
      let value ← node.value
      gather { seen with others := (key.name, value) :: seen.others } rest

def ofNode : Node → Except Fault Event
  | .object _ members stop => do
    let seen ← gather ⟨none, none, []⟩ members
    let stop ← stop
    let action ← (Action.ofEventMembers seen.others.reverse).mapError (.after stop)
    return ⟨action, seen.frameId.join, seen.frameUrl.join⟩
  | other => .error (other.mismatch "struct RecordedEvent")

def listOfNode : Node → Except Fault (List Event)
  | .array _ items stop => do
    let events ← items.mapM ofNode
    let _ ← stop
    return events
  | other => .error (other.mismatch "a sequence")

/-- Reads a recording: a JSON array of events. -/
def readList (text : String) : Except Json.Report (List Event) := Json.readText listOfNode text

/-- Reads a text that holds one event. -/
def read (text : String) : Except Json.Report Event := Json.readText ofNode text

end Event

namespace Action

/-- Reads the members of an action that stands alone. Its kind must be a word and is read where it
stands. -/
def gatherAlone (kind : Option Kind) (fields : Members) :
    List (Key × Node) → Except Fault (Option Kind × Members)
  | [] => .ok (kind, fields)
  | (key, node) :: rest => do
    if key.name = "action" then
      if kind.isSome then throw (.after key.mark (.repeatedField key.name))
      else
        let found ← kindAlone node
        gatherAlone (some found) fields rest
    else
      let value ← node.value
      gatherAlone kind ((key.name, value) :: fields) rest
where
  kindAlone : Node → Except Fault Kind
    | .scalar (.string name) _ => .ok (.ofName name)
    | other => .error (other.mismatch "variant identifier")

/-- The one container field of an action written as an array, which may not be left out. -/
def containerItem {α : Type} (variant : String) (read : Value → Except Cause (Option α))
    (items : List Value) : Except Cause (Option α) :=
  match items with
  | [] =>
    .error (.wrongLength 0 ("struct variant EventAction::" ++ variant ++ " with 1 element"))
  | item :: _ => read item

/-- An action from its fields in their order; loose fields may be left out at the end. -/
def ofItems (kind : Kind) (items : List Value) : Except Cause Action := do
  let text (i : Nat) := items[i]?.bind Field.text
  let (count, action) ← match kind with
    | .click => pure (1, click (text 0))
    | .change => pure (4, change (text 0) (text 1) (text 2) (text 3))
    | .keydown => pure (3, keydown (text 0) (text 1) (items[2]?.bind Field.whole))
    | .visit => pure (1, visit (text 0))
    | .viewport => do
      let size ← containerItem "Viewport" ViewportSize.ofValue? items
      pure (1, viewport size)
    | .navigation => pure (1, navigation (text 0))
    | .cookie => do
      let cookies ← containerItem "Cookie" CookieEntry.listOfValue? items
      pure (1, cookie cookies)
    | .storage => do
      let entries ← containerItem "Storage" StorageEntry.listOfValue? items
      pure (1, storage entries)
    | .unknown => pure (0, unknown)
  if count < items.length then throw (.wrongLength items.length (elementsWanted count))
  else return action

/-- An action that stands alone, as an object or as an array of its kind and its fields. -/
def ofNode : Node → Except Fault Action
  | .object _ members stop => do
    let (kind, fields) ← gatherAlone none [] members
    let stop ← stop
    match kind with
    | none => throw (.after stop (.missingField "action"))
    | some kind => (ofMembers kind fields.reverse).mapError (⟨·, none⟩)
  | .array _ items stop => do
    match items with
    | [] =>
      let stop ← stop
      throw (.after stop (.missingField "action"))
    | first :: rest =>
      let kind ← gatherAlone.kindAlone first
      let values ← Node.values rest
      let _ ← stop
      (ofItems kind values).mapError (⟨·, none⟩)
  | other => .error (other.mismatch "internally tagged enum EventAction")

/-- Reads a text that holds an action without an event around it. -/
def read (text : String) : Except Json.Report Action := Json.readText ofNode text

end Action
end Retrace
