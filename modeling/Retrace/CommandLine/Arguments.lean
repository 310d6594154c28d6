import Retrace.Options

/-!
The words of the command line. They are read from left to right, and the first word that is wrong,
or that asks for the help or the version, decides.
-/

namespace Retrace.CommandLine

/-- What a run is asked to do. -/
structure Arguments where
  /-- The recording; standard input where it is not given. -/
  file : Option String
  options : Options
  /-- Whether a recording or options with errors give no test. -/
  strict : Bool
  logDirectory : Option String
  deriving DecidableEq, Repr

inductive Request where
  | help
  | version
  | misuse
  | generate (arguments : Arguments)
  deriving DecidableEq, Repr

inductive Flag where
  | noDescribe
  | noBlankLines
  | noFrameDeclarations
  | strict
  deriving DecidableEq, Repr

inductive Setting where
  | blankLineStyle
  | dataAttribute
  | logDirectory
  deriving DecidableEq, Repr

/-- What has been read so far; nothing may be given twice. -/
structure Given where
  flags : List Flag := []
  blankLineStyle : Option BlankLineStyle := none
  dataAttribute : Option String := none
  logDirectory : Option String := none
  file : Option String := none

/-- A word of the command line. A long option may have its value behind an equals sign. -/
inductive Word where
  | endOfOptions
  | flag (flag : Flag)
  | setting (setting : Setting) (value : Option String)
  | request (request : Request)
  | value (text : String)

namespace Word

/-- A long option, with its own value if it has one. -/
def ofLong (name : String) (own : Option String) : Word :=
  match name, own with
  | "no-describe", none => .flag .noDescribe
  | "no-blank-lines", none => .flag .noBlankLines
  | "no-frame-declarations", none => .flag .noFrameDeclarations
  | "strict", none => .flag .strict
  | "help", none => .request .help
  | "version", none => .request .version
  | "blank-line-style", own => .setting .blankLineStyle own
  | "data-attribute", own => .setting .dataAttribute own
  | "log-dir", own => .setting .logDirectory own
  | _, _ => .request .misuse

/-- One minus stands for standard input, and the empty text is no option. -/
def ofText (text : String) : Word :=
  match text.toList with
  | ['-', '-'] => .endOfOptions
  | '-' :: '-' :: long =>
    let name := String.ofList (long.takeWhile (· != '='))
    match long.dropWhile (· != '=') with
    | [] => ofLong name none
    | _ :: own => ofLong name (some (String.ofList own))
  | '-' :: 'h' :: _ => .request .help
  | '-' :: 'V' :: _ => .request .version
  | '-' :: _ :: _ => .request .misuse
  | _ => .value text

end Word

namespace Given

def addFlag (given : Given) (flag : Flag) : Option Given :=
  if given.flags.contains flag then none else some { given with flags := flag :: given.flags }

/-- A path may not be empty. -/
def path? (text : String) : Option String := if text.isEmpty then none else some text

def addSetting (given : Given) (setting : Setting) (value : String) : Option Given :=
  match setting with
  | .blankLineStyle =>
    if given.blankLineStyle.isSome then none
    else (BlankLineStyle.parse value).toOption.map ({ given with blankLineStyle := some · })
  | .dataAttribute =>
    if given.dataAttribute.isSome then none else some { given with dataAttribute := some value }
  | .logDirectory =>
    if given.logDirectory.isSome then none
    else (path? value).map ({ given with logDirectory := some · })

def addFile (given : Given) (file : String) : Option Given :=
  if given.file.isSome then none else (path? file).map ({ given with file := some · })

/-- Words behind the end of the options. -/
def addFiles (given : Given) (files : List String) : Option Given :=
  files.foldlM addFile given

/-- The arguments, with settings that were not given taken from the environment. -/
def arguments (given : Given) (environment : String → Option String) : Request :=
  let fromVariable := if given.logDirectory.isSome then none else environment "CYGEN_LOG_DIR"
  if fromVariable = some "" then .misuse
  else .generate
    { file := given.file
      options :=
        { wrapDescribe := !given.flags.contains .noDescribe
          blankLines := !given.flags.contains .noBlankLines
          dataAttribute :=
            (given.dataAttribute.or (environment "CYGEN_DATA_ATTRIBUTE")).getD ""
          declareFrames := !given.flags.contains .noFrameDeclarations
          blankLineStyle := given.blankLineStyle.getD .joined }
      strict := given.flags.contains .strict
      logDirectory := given.logDirectory.or fromVariable }

/-- Reads words up to the first that decides. -/
def readWords (given : Given) : List String → Except Request Given
  | [] => .ok given
  | text :: rest =>
    match Word.ofText text with
    | .endOfOptions => orMisuse (given.addFiles rest)
    | .flag flag => do
      let given ← orMisuse (given.addFlag flag)
      readWords given rest
    | .setting setting (some value) => do
      let given ← orMisuse (given.addSetting setting value)
      readWords given rest
    | .setting setting none =>
      match rest with
      | [] => .error .misuse
      | next :: rest =>
        match Word.ofText next with
        | .value value => do
          let given ← orMisuse (given.addSetting setting value)
          readWords given rest
        | _ => .error .misuse
    | .request request => .error request
    | .value file => do
      let given ← orMisuse (given.addFile file)
      readWords given rest
where
  orMisuse (given : Option Given) : Except Request Given := given.elim (.error .misuse) .ok

end Given

/-- What the words of the command line ask for. -/
def Request.ofWords (environment : String → Option String) (words : List String) : Request :=
  match Given.readWords {} words with
  | .error request => request
  | .ok given => given.arguments environment

end Retrace.CommandLine
