import Retrace.CommandLine.Run

/-!
A described folder to run in: the files and directories below the working directory, and standard
input. Outside of it only the directories on the way up are known, and those made there.
-/

namespace Retrace.CommandLine

/-- The names that lead from one directory to a file or directory below it. -/
abbrev Path := List String

/-- A directory that is always there. -/
inductive Origin where
  | root
  | above (levels : Nat)
  deriving DecidableEq, Repr

namespace Origin

/-- The working directory. -/
def here : Origin := above 0

/-- The directory one up; the root lies in itself. -/
def parent : Origin → Origin
  | root => root
  | above levels => above (levels + 1)

end Origin

/-- A place below a directory that is there. -/
structure Spot where
  origin : Origin
  path : Path
  deriving DecidableEq, Repr

namespace Spot

def parent (spot : Spot) : Spot :=
  if spot.path.isEmpty then ⟨spot.origin.parent, []⟩ else ⟨spot.origin, spot.path.dropLast⟩

def child (spot : Spot) (name : String) : Spot := ⟨spot.origin, spot.path ++ [name]⟩

end Spot

structure Folder where
  files : List (Path × String)
  directories : List Spot
  /-- Standard input; none where it is no text. -/
  input : Option String

/-- The longest name that can be given, in bytes. -/
def maxNameSize : Nat := 255

/-- The longest path that can be followed, in bytes. -/
def maxPathSize : Nat := 4095

namespace Folder

/-- Whether a directory is given as such, or lies on the way to a file or to another directory. -/
def hasDirectory (folder : Folder) (spot : Spot) : Bool :=
  spot.path.isEmpty
    || folder.directories.any (fun d => d.origin == spot.origin && spot.path.isPrefixOf d.path)
    || spot.origin == .here
      && folder.files.any fun f => spot.path.isPrefixOf f.1 && spot.path.length < f.1.length

def file? (folder : Folder) (spot : Spot) : Option String :=
  if spot.origin = .here then folder.files.lookup spot.path else none

/-- What a name leads to. -/
inductive Found where
  | directory (spot : Spot)
  | file (content : String)

/-- What a name in a directory leads to; nothing between two slashes stays where it is. -/
def lookup (folder : Folder) (spot : Spot) (name : String) : Except FileError Found :=
  if name == "" || name == "." then .ok (.directory spot)
  else if name == ".." then .ok (.directory spot.parent)
  else if maxNameSize < name.utf8ByteSize then .error .nameTooLong
  else if folder.hasDirectory (spot.child name) then .ok (.directory (spot.child name))
  else match folder.file? (spot.child name) with
    | some content => .ok (.file content)
    | none => .error .notFound

/-- The place where a path starts, and its parts between the slashes. -/
def partsOf (path : String) : Except FileError (Spot × List String) :=
  if path.isEmpty then .error .notFound
  else if maxPathSize < path.utf8ByteSize then .error .nameTooLong
  else .ok (⟨if path.startsWith "/" then .root else .here, []⟩, segments path)

def read (folder : Folder) (spot : Spot) : List String → Except FileError String
  | [] => .error .isDirectory
  | name :: rest => do
    match ← folder.lookup spot name with
    | .directory spot => read folder spot rest
    | .file content => if rest.isEmpty then .ok content else .error .notDirectory

def readFile (folder : Folder) (path : String) : Except FileError String := do
  let (spot, parts) ← partsOf path
  folder.read spot parts

/-- Whether a path can be followed to its end and a directory is there. -/
def isDirectory (folder : Folder) (path : String) : Bool :=
  folder.readFile path matches .error .isDirectory

/-- Makes the last directory of a path. -/
def make (folder : Folder) (spot : Spot) : List String → Except FileError Folder
  | [] => .error .exists
  | [name] =>
    match folder.lookup spot name with
    | .ok _ => .error .exists
    | .error .notFound =>
      .ok { folder with directories := spot.child name :: folder.directories }
    | .error error => .error error
  | name :: rest => do
    match ← folder.lookup spot name with
    | .directory spot => make folder spot rest
    | .file _ => .error .notDirectory

/-- Makes one directory. Slashes behind its name do not matter. -/
def makeDirectory (folder : Folder) (path : String) : Except FileError Folder := do
  let (spot, parts) ← partsOf path
  folder.make spot (parts.reverse.dropWhile String.isEmpty).reverse

/-- How a log is opened in a directory, which may change the folder. -/
abbrev LogOpener := String → StateM Folder (Except String Unit)

/-- Opening a log that is kept nowhere. -/
def LogOpener.nowhere : LogOpener := fun _ => return .ok ()

/-- A folder as the surroundings of a run. -/
def surroundings (openLog : LogOpener) : Surroundings (StateM Folder) where
  makeDirectory path := fun folder =>
    match folder.makeDirectory path with
    | .ok folder => (.ok (), folder)
    | .error error => (.error error, folder)
  isDirectory path := fun folder => (folder.isDirectory path, folder)
  openLog := openLog
  readFile path := fun folder => (folder.readFile path, folder)
  readInput := fun folder => (folder.input.elim (.error .invalidText) .ok, folder)

/-- The outcome of a run in a folder. -/
def run (folder : Folder) (environment : String → Option String) (words : List String)
    (openLog : LogOpener := .nowhere) : Outcome :=
  (CommandLine.run (surroundings openLog) environment words folder).1

end Folder
end Retrace.CommandLine
