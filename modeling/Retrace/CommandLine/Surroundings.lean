import Retrace.CommandLine.Failure

/-!
What a run does with its surroundings, as operations that may have any effect. A directory that is
missing is made together with the directories it lies in.
-/

namespace Retrace.CommandLine

/-- Operations on files and directories, which are named by paths, and on standard input. `openLog` reports in
its own words why a log cannot be opened. -/
structure Surroundings (m : Type → Type) where
  makeDirectory : String → m (Except FileError Unit)
  isDirectory : String → m Bool
  openLog : String → m (Except String Unit)
  readFile : String → m (Except FileError String)
  readInput : m (Except FileError String)

/-- The parts of a path between its slashes. -/
def segments (path : String) : List String := (path.toList.splitOn '/').map String.ofList

/-- The directories with the given names, each in the next one: their paths, from the inside out. -/
def pathsOutward (root : String) : List String → List String
  | [] => []
  | name :: outer =>
    (root ++ "/".intercalate (name :: outer).reverse) :: pathsOutward root outer

/-- A path and the paths of the directories it lies in, from the inside out. Only the path itself keeps parts
that lead nowhere. -/
def outward (path : String) : List String :=
  let root := if path.startsWith "/" then "/" else ""
  let names := (segments path).filter fun part => part != "" && part != "."
  path :: pathsOutward root (names.reverse.drop 1)

namespace Surroundings

variable {m : Type → Type} [Monad m] (surroundings : Surroundings m)

/-- Makes a directory that may be there already. -/
def ensure (path : String) : m (Except FileError Unit) := do
  match ← surroundings.makeDirectory path with
  | .error .exists =>
    return if ← surroundings.isDirectory path then .ok () else .error .exists
  | made => return made

/-- Makes the first directory; those behind it only where the first cannot be made without. -/
def ensureFirst : List String → m (Except FileError Unit)
  | [] => return .ok ()
  | path :: outer => do
    match ← surroundings.ensure path with
    | .error .notFound =>
      match ← ensureFirst outer with
      | .ok () => surroundings.ensure path
      | .error error => return .error error
    | made => return made

/-- Makes a directory and those around it, as far as they are missing. -/
def makeDirectories (path : String) : m (Except FileError Unit) :=
  surroundings.ensureFirst (outward path)

end Surroundings
end Retrace.CommandLine
