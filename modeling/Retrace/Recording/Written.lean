import Retrace.Recording.Event

/-!
Events as JSON values. Every field of an action is written, a missing one as `null`; the frame is
written only where it is given.
-/

namespace Retrace

open Json (Value Members)

def numberValue (x : Option Binary64) : Value :=
  x.elim .null fun x => if x.isFinite then .scalar (.number (.double x)) else .null

def wholeValue (n : Nat) : Value := .scalar (.number (.whole n))

namespace ViewportSize

def toJson (size : ViewportSize) : Value :=
  .object [("width", numberValue size.width), ("height", numberValue size.height)]

end ViewportSize

namespace CookieEntry

/-- A cookie without options. -/
def ofPair (name value : String) : CookieEntry := ⟨some name, some value, []⟩

def toJson (cookie : CookieEntry) : Value :=
  .object (("name", .ofText? cookie.name) :: ("value", .ofText? cookie.value) :: cookie.options)

end CookieEntry

namespace StorageEntry

def ofPair (name value : String) : StorageEntry := ⟨some name, some value⟩

def toJson (entry : StorageEntry) : Value :=
  .object [("name", .ofText? entry.name), ("value", .ofText? entry.value)]

end StorageEntry

namespace Action

def fieldsToJson : Action → Members
  | click selector => [("selector", .ofText? selector)]
  | change selector value tagName targetType =>
    [("selector", .ofText? selector), ("value", .ofText? value),
      ("tagName", .ofText? tagName), ("targetType", .ofText? targetType)]
  | keydown selector value keyCode =>
    [("selector", .ofText? selector), ("value", .ofText? value),
      ("keyCode", keyCode.elim .null wholeValue)]
  | visit href => [("href", .ofText? href)]
  | viewport size => [("value", size.elim .null ViewportSize.toJson)]
  | navigation href => [("href", .ofText? href)]
  | cookie cookies => [("cookies", cookies.elim .null fun cs => .array (cs.map CookieEntry.toJson))]
  | storage entries => [("value", entries.elim .null fun es => .array (es.map StorageEntry.toJson))]
  | unknown => []

end Action

namespace Event

def toJson (event : Event) : Value :=
  .object <|
    ("action", .string (event.action.name?.getD "Unknown")) :: event.action.fieldsToJson
      ++ (event.frameId.elim [] fun id => [("frameId", wholeValue id)])
      ++ (event.frameUrl.elim [] fun url => [("frameUrl", .string url)])

/-- A recording as a JSON value. -/
def listToJson (events : List Event) : Value := .array (events.map toJson)

end Event
end Retrace
