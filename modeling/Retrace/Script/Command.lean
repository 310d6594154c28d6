import Retrace.Script.Tag
import Retrace.Frame
import Retrace.Json.Printer

/-!
The commands of a generated test. A command keeps what is missing as missing; only its text writes a
word, the gap, in that place.
-/

namespace Retrace

inductive Command where
  | click (selector : Option String)
  | select (selector value : Option String)
  | check (selector value : Option String)
  | type (selector value : Option String)
  | visit (href : Option String)
  | viewport (width height : Option Binary64)
  | clearCookies
  | setCookie (name value : Option String) (options : Json.Members)
  | setItem (name value : Option String)
  | declareFrames
  | findFrame (frame : FrameId) (url : Option String)

namespace Command

/-- The word a generated test shows for a missing field. -/
def placeholder : String := "undefined"

/-- A field between single quotes. -/
def literal (gap : String) (field : Option String) : String := "'" ++ field.getD gap ++ "'"

def numeral (gap : String) (field : Option Binary64) : String :=
  (field.map NumberStyle.plain.text).getD gap

/-- A call on what a selector finds. -/
def onElement (gap handle : String) (selector : Option String) (call : String) : String :=
  handle ++ ".get(" ++ literal gap selector ++ ")." ++ call

/-- The text of a command that addresses its frame by `handle`. -/
def text (gap handle : String) : Command → String
  | click selector => onElement gap handle selector "click()"
  | select selector value => onElement gap handle selector ("select(" ++ literal gap value ++ ")")
  | check selector value => onElement gap handle selector ("check(" ++ literal gap value ++ ")")
  | type selector value => onElement gap handle selector ("type(" ++ literal gap value ++ ")")
  | visit href => handle ++ ".visit(" ++ literal gap href ++ ")"
  | viewport width height =>
    handle ++ ".viewport(" ++ numeral gap width ++ ", " ++ numeral gap height ++ ")"
  | clearCookies => handle ++ ".clearCookies()"
  | setCookie name value options =>
    handle ++ ".setCookie(" ++ literal gap name ++ ", " ++ literal gap value ++ ", "
      ++ (Json.Value.object options).compact ++ ")"
  | setItem name value =>
    "window.localStorage.setItem(" ++ literal gap name ++ ", " ++ literal gap value ++ ")"
  | declareFrames => "let frames = await page.frames()"
  | findFrame frame url =>
    "const " ++ frameName frame ++ " = frames.find(f => f.url() === " ++ literal gap url ++ ")"

def tag : Command → Tag
  | click _ => .click
  | select .. | check .. | type .. => .change
  | visit _ => .visit
  | viewport .. => .viewport
  | clearCookies | setCookie .. => .cookie
  | setItem .. => .storage
  | declareFrames | findFrame .. => .declaration

/-- Whether no field of a command is missing. -/
def isComplete : Command → Bool
  | click selector => selector.isSome
  | select selector value | check selector value | type selector value =>
    selector.isSome && value.isSome
  | visit href => href.isSome
  | viewport width height => width.isSome && height.isSome
  | setCookie name value _ | setItem name value => name.isSome && value.isSome
  | findFrame _ url => url.isSome
  | clearCookies | declareFrames => true

end Command
end Retrace
