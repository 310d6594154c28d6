import Retrace.Json.Stream

/-!
What a generated line does.
-/

namespace Retrace

inductive Tag where
  | click
  | change
  | visit
  | viewport
  | cookie
  | storage
  | declaration
  deriving DecidableEq, Repr

namespace Tag

/-- The word for a tag; most are the words of the actions that the lines stem from. -/
def name : Tag → String
  | click => "click"
  | change => "change"
  | visit => "goto*"
  | viewport => "viewport*"
  | cookie => "cookie"
  | storage => "storage"
  | declaration => "frame-set"

def all : List Tag := [click, change, visit, viewport, cookie, storage, declaration]

def ofName? (name : String) : Option Tag := all.find? (·.name = name)

/-- Reads a JSON text that holds a tag. -/
def read (text : String) : Except Json.Report Tag :=
  (Json.Stream.choice (all.map name)).run text |>.map fun name => (ofName? name).getD click

end Tag
end Retrace
