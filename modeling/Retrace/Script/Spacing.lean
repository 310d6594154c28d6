import Retrace.Options
import Retrace.Script.Declaration

/-!
Separators around blocks, and the two passes over the blocks of a body.
-/

namespace Retrace

/-- A separator before the first block and after every block; none where there is no block. -/
def separate : List Block → List Block
  | [] => []
  | blocks => .separator :: blocks.flatMap fun block => [block, .separator]

namespace Options

/-- The blocks of a body as they are laid out. -/
def arrange (gap : String) (options : Options) (blocks : List Block) (frames : Registry) :
    List Block :=
  let declared :=
    if options.declareFrames && !frames.isEmpty then (declareUsedFrames gap blocks frames).1
    else blocks
  if options.usesSeparators then separate declared else declared

end Options
end Retrace
