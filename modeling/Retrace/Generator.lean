import Retrace.Recording.Check
import Retrace.Script.Layout
import Retrace.Script.Spacing
import Retrace.Translation

/-!
Generating a test from a recording, with or without a check first.
-/

namespace Retrace

structure Generator where
  options : Options
  /-- The word written where a field is missing. -/
  gap : String := Command.placeholder

/-- Why a checked recording gives no test. -/
inductive Refusal where
  | event (index : Nat) (finding : Finding)
  | options (error : OptionError)
  deriving DecidableEq, Repr

def Refusal.message : Refusal → String
  | .event index finding =>
    "Invalid event at index " ++ toString index ++ ": " ++ finding.text
  | .options error => "Invalid generator options: " ++ error.message

namespace Generator

/-- The test of a recording. Unknown actions are left out and missing fields show as gaps. -/
def test (generator : Generator) (events : List Event) : String :=
  let translation := translate generator.gap events
  let blocks :=
    generator.options.arrange generator.gap translation.blocks translation.frames
  Layout.test generator.options blocks translation.setup

/-- The first event with an error, and its first error. -/
def firstError? (events : List Event) : Option (Nat × Finding) :=
  (events.mapIdx fun i event => event.findings.errors.head?.map (i, ·)).findSome? id

/-- The test of a recording without errors, under options without errors. -/
def checkedTest (generator : Generator) (events : List Event) : Except Refusal String := do
  generator.options.check.mapError .options
  match firstError? events with
  | some (index, finding) => throw (.event index finding)
  | none => return generator.test events

end Generator
end Retrace
