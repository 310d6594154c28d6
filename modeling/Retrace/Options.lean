import Retrace.Json.Stream
import Retrace.Findings
import Retrace.Text.Blank

/-!
Options of the generator, as JSON and with their checks.
-/

namespace Retrace

/-- How generated lines are kept apart: every line of the body is followed by a line with one blank,
or separators stand around the blocks. -/
inductive BlankLineStyle where
  | joined
  | separators
  deriving DecidableEq, Repr

namespace BlankLineStyle

def name : BlankLineStyle → String
  | joined => "joined"
  | separators => "separators"

def names : List String := [joined.name, separators.name]

def ofName (name : String) : BlankLineStyle := if name = separators.name then separators else joined

/-- Reads a style in any case of its ASCII letters; the text in lower case where it is no style. -/
def parse (text : String) : Except String BlankLineStyle :=
  let lower := String.ofList (text.toList.map Char.toLower)
  if lower = joined.name then .ok joined
  else if lower = separators.name then .ok separators
  else .error lower

def unknownMessage (lower : String) : String := "unknown blank line style: " ++ lower

end BlankLineStyle

structure Options where
  /-- Whether the test stands in a suite. -/
  wrapDescribe : Bool := true
  /-- Whether generated lines are kept apart. -/
  blankLines : Bool := true
  /-- The attribute a recorder prefers in its selectors; generating does not need it. -/
  dataAttribute : String := ""
  /-- Whether a frame is declared before its first use. -/
  declareFrames : Bool := true
  blankLineStyle : BlankLineStyle := .joined
  deriving DecidableEq, Repr

namespace Options

def indent (options : Options) : String := if options.wrapDescribe then "    " else "   "

def usesSeparators (options : Options) : Bool :=
  options.blankLines && options.blankLineStyle == .separators

def usesJoined (options : Options) : Bool :=
  options.blankLines && options.blankLineStyle == .joined

open Json (Value) in
def toJson (options : Options) : Value :=
  .object
    [("wrapDescribe", .bool options.wrapDescribe),
      ("blankLinesBetweenBlocks", .bool options.blankLines),
      ("dataAttribute", .string options.dataAttribute),
      ("declareFrames", .bool options.declareFrames),
      ("blankLineStyle", .string options.blankLineStyle.name)]

/-- Characters that would end an attribute name inside a selector. -/
def breaksAttribute (c : Char) : Bool :=
  c == '\'' || c == '"' || c == '[' || c == ']' || c == '='

def findings (options : Options) : Findings :=
  let name := options.dataAttribute.toList
  let blank : List Finding :=
    if name.any Text.isBlank then [⟨"dataAttribute", "must not contain whitespace"⟩] else []
  let bare : List Finding :=
    if name.any breaksAttribute then [⟨"dataAttribute", "must be a bare attribute name"⟩]
    else []
  let idle : List Finding :=
    if !options.blankLines && options.blankLineStyle == .separators then
      [⟨"blankLineStyle", "has no effect while blankLinesBetweenBlocks is false"⟩]
    else []
  ⟨blank ++ bare, idle⟩

end Options

/-- An option that a check refuses. -/
structure OptionError where
  finding : Finding
  deriving DecidableEq, Repr

def OptionError.message (error : OptionError) : String :=
  "Invalid value for " ++ error.finding.text

namespace Options

/-- Fails with the first error of the options. -/
def check (options : Options) : Except OptionError Unit :=
  match options.findings.errors with
  | [] => .ok ()
  | finding :: _ => .error ⟨finding⟩

end Options
end Retrace
