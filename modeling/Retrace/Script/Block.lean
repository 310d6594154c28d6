import Retrace.Script.Tag
import Retrace.Frame

/-!
Generated lines and the blocks they are grouped in. All lines of a block address the frame that owns
the block; a line without a tag is a separator.
-/

namespace Retrace

structure Line where
  tag : Option Tag
  text : String
  /-- The sub-frame a line addresses; none for the main page. -/
  frame : Option FrameId
  deriving DecidableEq, Repr

/-- Whether a line only keeps others apart. -/
def Line.isStructural (line : Line) : Bool := line.tag.isNone

/-- The empty line of a separator. -/
def Line.blank : Line := ⟨none, "", none⟩

structure Block where
  frame : FrameId
  lines : List Line
  deriving DecidableEq, Repr

namespace Block

/-- The mark of a frame on its lines. -/
def stampOf (frame : FrameId) : Option FrameId := if frame = mainFrame then none else some frame

/-- A line of the frame that owns a block. -/
def stamp (frame : FrameId) (tag : Tag) (text : String) : Line := ⟨some tag, text, stampOf frame⟩

def empty (frame : FrameId) : Block := ⟨frame, []⟩

def single (frame : FrameId) (tag : Tag) (text : String) : Block := ⟨frame, [stamp frame tag text]⟩

/-- A blank line between blocks. -/
def separator : Block := ⟨mainFrame, [.blank]⟩

/-- Adds a line at the end. -/
def push (block : Block) (tag : Tag) (text : String) : Block :=
  { block with lines := block.lines ++ [stamp block.frame tag text] }

/-- Puts lines before those of the block. -/
def withPrefix (block : Block) (lines : List (Tag × String)) : Block :=
  { block with lines := lines.map (fun l => stamp block.frame l.1 l.2) ++ block.lines }

def isEmpty (block : Block) : Bool := block.lines.isEmpty

def isSeparator (block : Block) : Bool := !block.lines.isEmpty && block.lines.all Line.isStructural

@[simp] theorem lines_push (block : Block) (tag : Tag) (text : String) :
    (block.push tag text).lines = block.lines ++ [stamp block.frame tag text] := rfl

@[simp] theorem frame_withPrefix (block : Block) (lines : List (Tag × String)) :
    (block.withPrefix lines).frame = block.frame := rfl

@[simp] theorem lines_withPrefix (block : Block) (lines : List (Tag × String)) :
    (block.withPrefix lines).lines
      = lines.map (fun l => stamp block.frame l.1 l.2) ++ block.lines := rfl

end Block
end Retrace
