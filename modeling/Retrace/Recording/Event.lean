import Retrace.Json.Value

/-!
Recorded browser events. Every field may be missing: a recording is read as far as it makes sense,
and what it lacks is reported or shown in the generated test, not refused.
-/

namespace Retrace

/-- A number that names a frame; zero is the main page. -/
abbrev FrameId := Nat

/-- The page that holds all frames. -/
def mainFrame : FrameId := 0

/-- A viewport as given, fractions included. -/
structure ViewportSize where
  width : Option Binary64
  height : Option Binary64
  deriving DecidableEq, Repr

/-- A cookie; all that is neither its name nor its value is kept among its options. -/
structure CookieEntry where
  name : Option String
  value : Option String
  options : Json.Members
  deriving Repr

/-- An entry of the local storage. -/
structure StorageEntry where
  name : Option String
  value : Option String
  deriving DecidableEq, Repr

/-- What happened in the browser. -/
inductive Action where
  | click (selector : Option String)
  | change (selector value tagName targetType : Option String)
  | keydown (selector value : Option String) (keyCode : Option Nat)
  | visit (href : Option String)
  | viewport (size : Option ViewportSize)
  | navigation (href : Option String)
  | cookie (cookies : Option (List CookieEntry))
  | storage (entries : Option (List StorageEntry))
  | unknown
  deriving Repr

structure Event where
  action : Action
  frameId : Option FrameId
  frameUrl : Option String
  deriving Repr

namespace Action

/-- What an action is, without its fields. -/
inductive Kind where
  | click
  | change
  | keydown
  | visit
  | viewport
  | navigation
  | cookie
  | storage
  | unknown
  deriving DecidableEq, Repr

def kind : Action → Kind
  | click _ => .click
  | change .. => .change
  | keydown .. => .keydown
  | visit _ => .visit
  | viewport _ => .viewport
  | navigation _ => .navigation
  | cookie _ => .cookie
  | storage _ => .storage
  | unknown => .unknown

namespace Kind

/-- The word for a kind in a recording; every other word is an unknown action. -/
def name? : Kind → Option String
  | click => some "click"
  | change => some "change"
  | keydown => some "keydown"
  | visit => some "goto*"
  | viewport => some "viewport*"
  | navigation => some "navigation*"
  | cookie => some "cookie"
  | storage => some "storage"
  | unknown => none

/-- The known kinds in the order of their numbers. -/
def known : List Kind :=
  [click, change, keydown, visit, viewport, navigation, cookie, storage]

def ofName (name : String) : Kind := (known.find? (·.name? = some name)).getD unknown

def ofIndex (index : Nat) : Kind := known[index]?.getD unknown

end Kind

def name? (action : Action) : Option String := action.kind.name?

end Action

namespace Event

/-- An event on the main page. -/
def onMainPage (action : Action) : Event := ⟨action, none, none⟩

/-- An event in a frame with a URL. -/
def inFrame (action : Action) (frame : FrameId) (url : String) : Event :=
  ⟨action, some frame, some url⟩

/-- The frame an event came from. -/
def frame (event : Event) : FrameId := event.frameId.getD mainFrame

end Event
end Retrace
