import Retrace.Options
import Retrace.Script.Block

/-!
The text of a test: its lines inside the frame of a suite, a setup and a test case.
-/

namespace Retrace.Layout

def suiteHeader : String := "describe('test_name', function() \x7b\n"
def suiteFooter : String := "\x7d)"
def setupHeader : String := "  beforeEach(() => \x7b\n"
def setupFooter : String := "  \x7d)"
def caseHeader : String := "  it('what_it_does', function() \x7b\n"
def caseFooter : String := "  \x7d)\n"

/-- What parts of the frame end with when blank lines are wanted. -/
def spacer (options : Options) : String := if options.blankLines then "\n" else ""

def lineEnd (options : Options) (blocks : List Block) : String :=
  if options.usesJoined && !blocks.isEmpty then "\n \n" else "\n"

/-- A line with its indent; separators have none. -/
def line (options : Options) (lineEnd : String) (line : Line) : String :=
  (if line.isStructural then "" else options.indent) ++ line.text ++ lineEnd

def lines (options : Options) (lineEnd : String) (blocks : List Block) : String :=
  String.join ((blocks.flatMap Block.lines).map (line options lineEnd))

def body (options : Options) (blocks : List Block) : String :=
  lines options (lineEnd options blocks) blocks

/-- The setup, which is left out where there is nothing to set up. -/
def setup (options : Options) (blocks : List Block) : String :=
  if blocks.isEmpty then ""
  else setupHeader ++ lines options "\n" blocks ++ setupFooter ++ "\n\n"

/-- The text of a test. -/
def test (options : Options) (blocks setupBlocks : List Block) : String :=
  (if options.wrapDescribe then suiteHeader ++ spacer options else "")
    ++ setup options setupBlocks
    ++ caseHeader ++ "\n" ++ body options blocks ++ caseFooter ++ spacer options
    ++ (if options.wrapDescribe then suiteFooter ++ spacer options else "")

end Retrace.Layout
