import Retrace.Findings
import Retrace.Recording.Event

/-!
Checks of recorded events: which fields the commands of an event need, and which events are left
out of the test.
-/

namespace Retrace

/-- An error at `path` unless the field is there. -/
def require (path : String) (present : Bool) : List Finding :=
  if present then [] else [⟨path, "missing required field"⟩]

/-- The path of an item of a list. -/
def itemPath (list : String) (index : Nat) : String := list ++ "[" ++ toString index ++ "]"

/-- The errors of the entries of a list. -/
def entryErrors {α : Type} (list : String) (name value : α → Option String) (entries : List α) :
    List Finding :=
  (entries.mapIdx fun i entry =>
    require (itemPath list i ++ ".name") (name entry).isSome
      ++ require (itemPath list i ++ ".value") (value entry).isSome).flatten

namespace Action

/-- Whether a change of such an element has a command. -/
def changes (tagName : String) : Bool := tagName == "SELECT" || tagName == "INPUT"

def errors : Action → List Finding
  | click selector => require "selector" selector.isSome
  | change selector value tagName _ =>
    require "selector" selector.isSome ++ require "value" value.isSome
      ++ require "tagName" tagName.isSome
  | keydown .. => []
  | visit href | navigation href => require "href" href.isSome
  | viewport none => require "value" false
  | viewport (some size) =>
    require "value.width" size.width.isSome ++ require "value.height" size.height.isSome
  | cookie none => require "cookies" false
  | cookie (some cookies) =>
    entryErrors "cookies" CookieEntry.name CookieEntry.value cookies
  | storage none => require "value" false
  | storage (some entries) => entryErrors "value" StorageEntry.name StorageEntry.value entries
  | unknown => []

def warnings : Action → List Finding
  | change _ _ (some tagName) _ =>
    if changes tagName then []
    else [⟨"tagName", "change on " ++ tagName ++ " is not translated"⟩]
  | unknown => [⟨"action", "unrecognized action is skipped"⟩]
  | _ => []

end Action

namespace Event

/-- A sub-frame is found by its URL. -/
def frameErrors (event : Event) : List Finding :=
  if event.frame != mainFrame && event.frameUrl.isNone then
    [⟨"frameUrl", "required for frame " ++ toString event.frame⟩]
  else []

/-- What a check of one event finds. -/
def findings (event : Event) : Findings :=
  ⟨event.frameErrors ++ event.action.errors, event.action.warnings⟩

/-- What a check of a recording finds; paths start with the index of the event. -/
def allFindings (events : List Event) : Findings :=
  (events.mapIdx fun i event => event.findings.inside (itemPath "events" i)).foldl .merge .empty

end Event
end Retrace
