import Retrace.Script.Block
import Retrace.Script.Command

/-!
Declaring frames. Before the lines of the first block that uses a registered frame stand the two
lines that find the frame.
-/

namespace Retrace

namespace Block

/-- The first registered frame that a line of the block addresses. -/
def pendingFrame? (registry : Registry) (block : Block) : Option FrameId :=
  (block.lines.filterMap Line.frame).find? registry.contains

/-- The lines that find a frame. -/
def declarationLines (gap : String) (frame : FrameId) (url : Option String) :
    List (Tag × String) :=
  [Command.declareFrames, .findFrame frame url].map fun c => (c.tag, c.text gap (handleOf frame))

end Block

/-- Declares every frame in the first block that uses it. Gives the frames that are left. -/
def declareUsedFrames (gap : String) : List Block → Registry → List Block × Registry
  | [], registry => ([], registry)
  | block :: rest, registry =>
    match block.pendingFrame? registry with
    | none =>
      let (rest, left) := declareUsedFrames gap rest registry
      (block :: rest, left)
    | some frame =>
      let (slot, registry) := registry.take frame
      let declared := block.withPrefix (Block.declarationLines gap frame slot.join)
      let (rest, left) := declareUsedFrames gap rest registry
      (declared :: rest, left)

end Retrace
