import Retrace.Generator
import Retrace.Json.Fault

/-!
Why a run gives no test, and the line that says so.
-/

namespace Retrace.CommandLine

/-- What is wrong with a file or a directory. -/
inductive FileError where
  | notFound
  | exists
  | notDirectory
  | isDirectory
  | nameTooLong
  | invalidText
  | other (code : Nat) (kind message : String)
  deriving DecidableEq, Repr

/-- A named value with named parts in braces. -/
def record (name : String) (parts : List (String × String)) : String :=
  name ++ " \x7b "
    ++ ", ".intercalate (parts.map fun part => part.1 ++ ": " ++ part.2) ++ " \x7d"

/-- A named value with unnamed parts in parentheses. -/
def applied (name : String) (part : String) : String := name ++ "(" ++ part ++ ")"

namespace FileError

def system (code : Nat) (kind message : String) : String :=
  record "Os" [("code", toString code), ("kind", kind), ("message", Text.quoted message)]

def text : FileError → String
  | notFound => system 2 "NotFound" "No such file or directory"
  | .exists => system 17 "AlreadyExists" "File exists"
  | notDirectory => system 20 "NotADirectory" "Not a directory"
  | isDirectory => system 21 "IsADirectory" "Is a directory"
  | nameTooLong => system 36 "InvalidFilename" "File name too long"
  | invalidText =>
    record "Error"
      [("kind", "InvalidData"), ("message", Text.quoted "stream did not contain valid UTF-8")]
  | other code kind message => system code kind message

end FileError

/-- Why a run gives no test: one case per stage. -/
inductive Failure where
  | logDirectory (error : FileError)
  | logFile (report : String)
  | input (source : String) (error : FileError)
  | recording (report : Json.Report)
  | refusal (refusal : Refusal)
  deriving DecidableEq, Repr

namespace Failure

def reportText (report : Json.Report) : String :=
  let place := report.place.getD ⟨0, 0⟩
  applied "Error"
    (Text.quoted report.cause.message ++ ", line: " ++ toString place.line
      ++ ", column: " ++ toString place.column)

def text : Failure → String
  | logDirectory error => error.text
  | logFile report => report
  | input source error =>
    record "Io" [("source_name", Text.quoted source), ("error", error.text)]
  | recording report => applied "Generate" (applied "Parse" (reportText report))
  | refusal (.event index finding) =>
    record "InvalidEvent"
      [("index", toString index), ("message", Text.quoted finding.text)]
  | refusal (.options error) => applied "InvalidOptions" (Text.quoted error.message)

end Failure
end Retrace.CommandLine
