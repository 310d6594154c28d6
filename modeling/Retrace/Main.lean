import Retrace.CommandLine.Run

/-!
The program: a run in the real surroundings.
-/

namespace Retrace.CommandLine

/-- The number of a system error, which some calls give with the other sign. -/
def errorNumber (code : UInt32) : Nat := (min code (0 - code)).toNat

/-- The error of a system call. -/
def FileError.ofSystem : IO.Error → FileError
  | .noFileOrDirectory .. => .notFound
  | .alreadyExists .. => .exists
  | .inappropriateType _ code details =>
    if errorNumber code = 20 then .notDirectory
    else if errorNumber code = 21 then .isDirectory
    else .other (errorNumber code) "Other" details
  | .invalidArgument _ code details =>
    if errorNumber code = 36 then .nameTooLong
    else .other (errorNumber code) "Other" details
  | error => .other 5 "Other" (toString error)

/-- An action of the system, with its error as a value. -/
def attempt {α : Type} (action : IO α) : IO (Except FileError α) := do
  try
    return .ok (← action)
  catch error =>
    return .error (.ofSystem error)

def decode (bytes : ByteArray) : Except FileError String :=
  (String.fromUTF8? bytes).elim (.error .invalidText) .ok

/-- All of a stream. -/
partial def readAll (stream : IO.FS.Stream) (done : ByteArray) : IO ByteArray := do
  let bytes ← stream.read 65536
  if bytes.isEmpty then return done else readAll stream (done ++ bytes)

/-- The real file system, without logs. A path with one dot behind it is taken just where it is a directory. -/
def realSurroundings : Surroundings IO where
  makeDirectory path := attempt (IO.FS.createDir path)
  isDirectory path := return (← attempt (IO.FS.createDir (path ++ "/."))) matches .error .exists
  openLog _ := return .ok ()
  readFile path := return (← attempt (IO.FS.readBinFile path)).bind decode
  readInput := return (← attempt (do readAll (← IO.getStdin) .empty)).bind decode

end Retrace.CommandLine

open Retrace.CommandLine in
def main (words : List String) : IO UInt32 := do
  let dataAttribute ← IO.getEnv "CYGEN_DATA_ATTRIBUTE"
  let logDirectory ← IO.getEnv "CYGEN_LOG_DIR"
  let environment : String → Option String
    | "CYGEN_DATA_ATTRIBUTE" => dataAttribute
    | "CYGEN_LOG_DIR" => logDirectory
    | _ => none
  let outcome ← run realSurroundings environment words
  IO.print outcome.output
  match outcome.failure with
  | some failure => IO.eprintln ("Error: " ++ failure.text)
  | none => if outcome.exitCode = 2 then IO.eprintln "error: invalid arguments; see --help"
  return outcome.exitCode.toUInt32
