import Retrace.CommandLine.Arguments
import Retrace.CommandLine.Surroundings
import Retrace.Recording.Reading

/-!
A run of the command line. What surrounds it is given as operations, so that a run in a described folder and
one on a real system are the same run.
-/

namespace Retrace.CommandLine

/-- How a run ends. -/
structure Outcome where
  exitCode : Nat
  output : String
  failure : Option Failure
  deriving DecidableEq, Repr

namespace Outcome

def success (output : String) : Outcome := ⟨0, output, none⟩

def failed (failure : Failure) : Outcome := ⟨1, "", some failure⟩

def misuse : Outcome := ⟨2, "", none⟩

end Outcome

def versionText : String := "cygen 0.1.0\n"

def helpText : String :=
  "Generate a Cypress test from recorded browser events\n\n"
    ++ "Usage: cygen [OPTIONS] [EVENTS]\n\n"
    ++ "Arguments:\n"
    ++ "  [EVENTS]  Recorded events as a JSON array (`-` or omitted reads stdin)\n\n"
    ++ "Options:\n"
    ++ "      --no-describe              Do not wrap the test in a describe block\n"
    ++ "      --no-blank-lines           Do not separate generated lines with blank lines\n"
    ++ "      --blank-line-style <BLANK_LINE_STYLE>\n"
    ++ "                                 Blank line style (joined, separators) [default: joined]\n"
    ++ "      --no-frame-declarations    Do not declare sub-frames before their first use\n"
    ++ "      --data-attribute <DATA_ATTRIBUTE>\n"
    ++ "                                 Attribute preferred for selectors by the recorder\n"
    ++ "      --strict                   Fail on events with missing fields\n"
    ++ "      --log-dir <LOG_DIR>        Also write logs to daily rotated files in this directory\n"
    ++ "  -h, --help                     Print help\n"
    ++ "  -V, --version                  Print version\n"

/-- Whether a path is the one minus that stands for standard input. Slashes and dots behind it do
not matter. -/
def isInputPath (path : String) : Bool :=
  match segments path with
  | "-" :: rest => rest.all fun part => part == "" || part == "."
  | _ => false

/-- The test of a recording, or why there is none. -/
def testOf (arguments : Arguments) (content : String) : Except Failure String := do
  let events ← (Event.readList content).mapError .recording
  let generator : Generator := { options := arguments.options }
  if arguments.strict then (generator.checkedTest events).mapError .refusal
  else return generator.test events

section

variable {m : Type → Type} [Monad m] (surroundings : Surroundings m)

/-- The text of the recording. -/
def readContent (file : Option String) : m (Except Failure String) :=
  match file.filter (!isInputPath ·) with
  | some path => return (← surroundings.readFile path).mapError (.input path)
  | none => return (← surroundings.readInput).mapError (.input "stdin")

/-- Makes the log directory, if there is to be one, and opens the log in it. -/
def prepareLog (directory : Option String) : m (Except Failure Unit) := do
  match directory with
  | none => return .ok ()
  | some directory =>
    match ← surroundings.makeDirectories directory with
    | .error error => return .error (.logDirectory error)
    | .ok () => return (← surroundings.openLog directory).mapError .logFile

/-- A run with accepted arguments. -/
def generate (arguments : Arguments) : m Outcome := do
  match ← prepareLog surroundings arguments.logDirectory with
  | .error failure => return .failed failure
  | .ok () =>
    match ← readContent surroundings arguments.file with
    | .error failure => return .failed failure
    | .ok content =>
      match testOf arguments content with
      | .error failure => return .failed failure
      | .ok test => return .success test

def run (environment : String → Option String) (words : List String) : m Outcome :=
  match Request.ofWords environment words with
  | .help => return .success helpText
  | .version => return .success versionText
  | .misuse => return .misuse
  | .generate arguments => generate surroundings arguments

end

end Retrace.CommandLine
