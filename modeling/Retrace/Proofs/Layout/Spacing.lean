import Retrace.Generator
import Retrace.Proofs.Layout.Text

/-! Spacing is cosmetic. All that the options for blank lines change in a test are rows without ink: a
line ends with a break whichever way lines are kept apart, so every row keeps its text and its indent. -/
namespace Retrace.Layout

/-- The rows of a text that show something, indents included. -/
def inked (text : List Char) : List (List Char) :=
  (text.splitOn '\n').filter fun row => row.any (· != ' ')

lemma inked_append_break (text rest : List Char) :
    inked (text ++ '\n' :: rest) = inked text ++ inked rest := by
  unfold inked List.splitOn
  rw [List.splitOnP_append_cons _ _ (by simp), List.filter_append]

lemma inked_nil : inked [] = [] := by decide

lemma inked_blank : inked [' '] = [] := by decide

/-- A text that shows the same whatever follows: its last row is over, or there is none. -/
def Closed (text : List Char) : Prop := ∀ rest, inked (text ++ rest) = inked text ++ inked rest

lemma closed_nil : Closed [] := by
  intro rest
  rw [List.nil_append, inked_nil, List.nil_append]

lemma closed_append_break (text : List Char) : Closed (text ++ ['\n']) := by
  intro rest
  rw [List.append_assoc, List.singleton_append, inked_append_break, inked_append_break, inked_nil,
    List.append_nil]

lemma Closed.append {text more : List Char} (h : Closed text) (hm : Closed more) :
    Closed (text ++ more) := by
  intro rest
  rw [List.append_assoc, h, hm, h, List.append_assoc]

/-- An end of line closes any line and adds no ink to it. -/
def EndsLine (lineEnd : String) : Prop :=
  ∀ text, Closed (text ++ lineEnd.toList) ∧ inked (text ++ lineEnd.toList) = inked text

lemma endsLine_break : EndsLine "\n" := by
  intro text
  refine ⟨closed_append_break text, ?_⟩
  have h := inked_append_break text []
  rwa [inked_nil, List.append_nil] at h

lemma endsLine_joined : EndsLine "\n \n" := by
  intro text
  have hend : text ++ "\n \n".toList = text ++ ['\n'] ++ ([' '] ++ ['\n']) := by simp
  rw [hend]
  refine ⟨(closed_append_break text).append (closed_append_break [' ']), ?_⟩
  have htext : inked (text ++ ['\n']) = inked text := (endsLine_break text).2
  have hblank : inked ([' '] ++ ['\n']) = inked [' '] := (endsLine_break [' ']).2
  rw [closed_append_break text, htext, hblank, inked_blank, List.append_nil]

lemma endsLine_bodyEnd (options : Options) : EndsLine (bodyEnd options) := by
  rcases bodyEnd_cases options with he | he
  · rw [he]
    exact endsLine_break
  · rw [he]
    exact endsLine_joined

/-! ### Blocks -/

/-- What the lines of blocks show. -/
def inkedBlocks (options : Options) (blocks : List Block) : List (List Char) :=
  blocks.flatMap fun block => block.lines.flatMap fun line => inked (row options line)

lemma inked_lines {lineEnd : String} (h : EndsLine lineEnd) (options : Options)
    (blocks : List Block) :
    Closed (lines options lineEnd blocks).toList ∧
      inked (lines options lineEnd blocks).toList = inkedBlocks options blocks := by
  rw [toList_lines, inkedBlocks, ← List.flatMap_assoc]
  induction blocks.flatMap Block.lines with
  | nil => exact ⟨closed_nil, inked_nil⟩
  | cons line rest ih =>
    obtain ⟨hclosed, hrest⟩ := ih
    obtain ⟨hend, hline⟩ := h (row options line)
    rw [List.flatMap_cons, List.flatMap_cons]
    exact ⟨hend.append hclosed, by rw [hend, hline, hrest]⟩

lemma inkedBlocks_cons (options : Options) (block : Block) (rest : List Block) :
    inkedBlocks options (block :: rest) =
      (block.lines.flatMap fun line => inked (row options line)) ++ inkedBlocks options rest := rfl

lemma inkedBlocks_separator_cons (options : Options) (rest : List Block) :
    inkedBlocks options (.separator :: rest) = inkedBlocks options rest := by
  have hblank : inked (row options .blank) = [] := inked_nil
  simp [inkedBlocks_cons, Block.separator, hblank]

lemma inkedBlocks_spaced (options : Options) (blocks : List Block) :
    inkedBlocks options (blocks.flatMap fun block => [block, .separator]) =
      inkedBlocks options blocks := by
  induction blocks with
  | nil => rfl
  | cons block rest ih =>
    change inkedBlocks options (block :: .separator :: rest.flatMap fun b => [b, .separator]) = _
    rw [inkedBlocks_cons, inkedBlocks_separator_cons, ih, inkedBlocks_cons]

lemma inkedBlocks_separate (options : Options) (blocks : List Block) :
    inkedBlocks options (separate blocks) = inkedBlocks options blocks := by
  cases blocks with
  | nil => rfl
  | cons block rest =>
    change inkedBlocks options (.separator :: (block :: rest).flatMap fun b => [b, .separator]) = _
    rw [inkedBlocks_separator_cons, inkedBlocks_spaced]

lemma inkedBlocks_arrange (gap : String) (options : Options) (blocks : List Block)
    (frames : Registry) : inkedBlocks options (options.arrange gap blocks frames) =
      inkedBlocks options (if options.declareFrames && !frames.isEmpty then
        (declareUsedFrames gap blocks frames).1 else blocks) := by
  by_cases h : options.usesSeparators
  · rw [Options.arrange, if_pos h]
    exact inkedBlocks_separate options _
  · rw [Options.arrange, if_neg h]

/-! ### Tests -/

lemma closed_of_getLast? {text : List Char} (h : text.getLast? = some '\n') : Closed text := by
  obtain ⟨before, rfl⟩ := List.getLast?_eq_some_iff.mp h
  exact closed_append_break before

lemma closed_setup (options : Options) (blocks : List Block) :
    Closed (setup options blocks).toList := by
  unfold setup
  split_ifs
  · exact closed_nil
  · apply closed_of_getLast?
    simp

lemma closed_spacer (options : Options) : Closed (spacer options).toList := by
  unfold spacer
  split_ifs
  · exact closed_append_break []
  · exact closed_nil

lemma inked_append_spacer (options : Options) (text : List Char) :
    inked (text ++ (spacer options).toList) = inked text := by
  unfold spacer
  split_ifs
  · exact (endsLine_break text).2
  · rw [String.toList_empty, List.append_nil]

/-- What a test shows, in which no trace is left of how its lines are kept apart. -/
theorem inked_test (options : Options) (blocks setupBlocks : List Block) :
    inked (test options blocks setupBlocks).toList =
      (if options.wrapDescribe then inked suiteHeader.toList else []) ++
        inked (setup options setupBlocks).toList ++ inked caseHeader.toList ++
        inkedBlocks options blocks ++ inked caseFooter.toList ++
        (if options.wrapDescribe then inked suiteFooter.toList else []) := by
  have hsuite : Closed suiteHeader.toList := closed_of_getLast? rfl
  have hcase : Closed caseHeader.toList := closed_of_getLast? rfl
  have hbreak : Closed "\n".toList := closed_of_getLast? rfl
  have hfooter : Closed caseFooter.toList := closed_of_getLast? rfl
  have hspace : inked (spacer options).toList = [] := inked_append_spacer options []
  have hskip : inked "\n".toList = [] := by decide
  obtain ⟨hbody, hlines⟩ := inked_lines (endsLine_bodyEnd options) options blocks
  unfold test
  rw [body_eq]
  split_ifs with hwrap
  · simp only [String.toList_append, List.append_assoc]
    rw [hsuite, closed_spacer, closed_setup, hcase, hbreak, hbody, hfooter, closed_spacer,
      inked_append_spacer, hspace, hskip, hlines]
    simp only [List.nil_append]
  · simp only [String.toList_append, String.toList_empty, List.append_assoc, List.nil_append,
      List.append_nil]
    rw [closed_setup, hcase, hbreak, hbody, hfooter, hspace, hskip, hlines]
    simp only [List.nil_append, List.append_nil]

/-- How generated lines are kept apart changes only rows without ink, and where they are not kept apart it
changes nothing. -/
theorem spacing_is_cosmetic (gap : String) (events : List Event)
    (wrapDescribe declareFrames : Bool) :
    let test (blankLines : Bool) (blankLineStyle : BlankLineStyle) (dataAttribute : String) :=
      Generator.test
        { options := { wrapDescribe, blankLines, dataAttribute, declareFrames, blankLineStyle }
          gap } events
    (∀ blankLines style dataAttribute blankLines' style' dataAttribute',
      inked (test blankLines style dataAttribute).toList =
        inked (test blankLines' style' dataAttribute').toList) ∧
    ∀ style dataAttribute style' dataAttribute',
      test false style dataAttribute = test false style' dataAttribute' := by
  intro test
  constructor
  · intro blankLines style dataAttribute blankLines' style' dataAttribute'
    simp only [test, Generator.test]
    rw [inked_test, inked_test, inkedBlocks_arrange, inkedBlocks_arrange]
    -- What is left speaks of the indent and of the declared frames, on which both agree.
    rfl
  · intro style dataAttribute style' dataAttribute'
    rfl

end Retrace.Layout
