import Retrace.Script.Block
import Retrace.Script.Command

/-!
From events to blocks. Each event adds the blocks of its commands to the body or to the setup of the
test, in the frame it came from; the scan keeps track of the frames.
-/

namespace Retrace

namespace Action

/-- The commands an action adds to the body of the test. A change is only known for a select and for
an input. -/
def bodyCommands : Action → List Command
  | click selector => [.click selector]
  | change selector value tagName targetType =>
    match tagName, targetType with
    | some "SELECT", _ => [.select selector value]
    | some "INPUT", some "checkbox" => [.check selector value]
    | some "INPUT", _ => [.type selector value]
    | _, _ => []
  | keydown .. => []
  | visit href => [.visit href]
  | viewport size => [.viewport (size.bind (·.width)) (size.bind (·.height))]
  | navigation href => [.visit href]
  | cookie _ => []
  | storage entries => (entries.getD []).map fun e => .setItem e.name e.value
  | unknown => []

/-- The commands an action adds to the setup of the test. -/
def setupCommands : Action → List Command
  | cookie cookies =>
    .clearCookies :: (cookies.getD []).map fun c => .setCookie c.name c.value c.options
  | _ => []

/-- Whether an action waits for a page; the wait needs no command. -/
def waits : Action → Bool
  | navigation _ => true
  | _ => false

end Action

namespace Command

/-- The block of one command in a frame with its handle. -/
def block (gap : String) (frame : FrameId) (handle : String) (command : Command) : Block :=
  .single frame command.tag (command.text gap handle)

end Command

namespace Action

/-- The body blocks of an action in a frame; a wait is a block without lines. -/
def bodyBlocks (gap : String) (frame : FrameId) (handle : String) (action : Action) : List Block :=
  (if action.waits then [.empty frame] else [])
    ++ action.bodyCommands.map (Command.block gap frame handle)

def setupBlocks (gap : String) (frame : FrameId) (handle : String) (action : Action) : List Block :=
  action.setupCommands.map (Command.block gap frame handle)

end Action

/-- What the events so far have added. -/
structure Scan where
  tracker : Tracker
  blocks : List Block
  setup : List Block
  navigates : Bool
  deriving DecidableEq, Repr

namespace Scan

def start : Scan := ⟨.start, [], [], false⟩

def step (gap : String) (scan : Scan) (event : Event) : Scan :=
  let tracker := scan.tracker.observe event.frameId event.frameUrl
  { tracker
    blocks := scan.blocks ++ event.action.bodyBlocks gap tracker.current tracker.handle
    setup := scan.setup ++ event.action.setupBlocks gap tracker.current tracker.handle
    navigates := scan.navigates || event.action.waits }

def run (gap : String) (scan : Scan) (events : List Event) : Scan := events.foldl (step gap) scan

end Scan

/-- A recording as blocks: the body and the setup of the test, the frames of the recording, and
whether it navigates. -/
structure Translation where
  blocks : List Block
  setup : List Block
  frames : Registry
  navigates : Bool
  deriving DecidableEq, Repr

def Scan.finish (scan : Scan) : Translation :=
  ⟨scan.blocks, scan.setup, scan.tracker.registry, scan.navigates⟩

def translate (gap : String) (events : List Event) : Translation :=
  (Scan.start.run gap events).finish

end Retrace
