import Retrace.Recording.Event

/-!
Sub-frames of a recorded page: the name a frame has in the test, and a registry of the URL each
frame had when it was first seen.
-/

namespace Retrace

/-- What addresses a frame in the test. -/
def frameName (frame : FrameId) : String := "frame_" ++ toString frame

def mainHandle : String := "cy"

/-- What addresses a frame or the main page. -/
def handleOf (frame : FrameId) : String := if frame = mainFrame then mainHandle else frameName frame

/-- Frames in ascending order, each with its URL if it had one. -/
structure Registry where
  entries : List (FrameId × Option String)
  deriving DecidableEq, Repr

namespace Registry

def empty : Registry := ⟨[]⟩

/-- Puts a frame at its place unless it is there. -/
def insert (frame : FrameId) (url : Option String) :
    List (FrameId × Option String) → List (FrameId × Option String)
  | [] => [(frame, url)]
  | (id, u) :: rest =>
    if frame < id then (frame, url) :: (id, u) :: rest
    else if frame = id then (id, u) :: rest
    else (id, u) :: insert frame url rest

/-- Records a frame; a known frame keeps what was recorded first. -/
def record (registry : Registry) (frame : FrameId) (url : Option String) : Registry :=
  ⟨insert frame url registry.entries⟩

/-- What is recorded for a frame: nothing, or a URL that may be missing. -/
def slot? (registry : Registry) (frame : FrameId) : Option (Option String) :=
  registry.entries.lookup frame

def contains (registry : Registry) (frame : FrameId) : Bool := (registry.slot? frame).isSome

def url? (registry : Registry) (frame : FrameId) : Option String := (registry.slot? frame).join

/-- Forgets a frame. -/
def erase (registry : Registry) (frame : FrameId) : Registry :=
  ⟨registry.entries.filter (·.1 != frame)⟩

/-- Forgets a frame and gives what was recorded for it. -/
def take (registry : Registry) (frame : FrameId) : Option (Option String) × Registry :=
  (registry.slot? frame, registry.erase frame)

def size (registry : Registry) : Nat := registry.entries.length

def isEmpty (registry : Registry) : Bool := registry.entries.isEmpty

def ids (registry : Registry) : List FrameId := registry.entries.map (·.1)

end Registry

/-- The frame of the event at hand with what addresses it, and all the frames seen so far. -/
structure Tracker where
  current : FrameId
  handle : String
  registry : Registry
  deriving DecidableEq, Repr

namespace Tracker

def start : Tracker := ⟨mainFrame, mainHandle, .empty⟩

/-- Goes to the frame of an event; no frame, or zero, is the main page, which is not recorded. -/
def observe (tracker : Tracker) (frame : Option FrameId) (url : Option String) : Tracker :=
  let id := frame.getD mainFrame
  if id = mainFrame then { tracker with current := mainFrame, handle := mainHandle }
  else ⟨id, frameName id, tracker.registry.record id url⟩

end Tracker
end Retrace
