import Mathlib.Tactic.Common
import Retrace.Script.Block

/-! Blocks as their operations build them. What was added at which end can be read off the steps, so the lines
of a block that was built are known in closed form. -/
namespace Retrace.Block

/-- What the operations on blocks can build. -/
inductive Built : Block → Prop
  | empty (frame : FrameId) : Built (empty frame)
  | single (frame : FrameId) (tag : Tag) (text : String) : Built (single frame tag text)
  | separator : Built separator
  | push {block : Block} (built : Built block) (tag : Tag) (text : String) :
    Built (block.push tag text)
  | withPrefix {block : Block} (built : Built block) (lines : List (Tag × String)) :
    Built (block.withPrefix lines)

theorem Built.line {block : Block} (h : block.Built) {line : Line} (hl : line ∈ block.lines) :
    line = .blank ∨ ∃ tag text, line = stamp block.frame tag text := by
  induction h with
  | empty frame => exact absurd hl List.not_mem_nil
  | single frame tag text => exact .inr ⟨tag, text, List.mem_singleton.mp hl⟩
  | separator => exact .inl (List.mem_singleton.mp hl)
  | push built tag text ih =>
    rw [lines_push] at hl
    rcases List.mem_append.mp hl with hl | hl
    · exact ih hl
    · exact .inr ⟨tag, text, List.mem_singleton.mp hl⟩
  | withPrefix built lines ih =>
    rw [lines_withPrefix] at hl
    rcases List.mem_append.mp hl with hl | hl
    · obtain ⟨⟨tag, text⟩, -, rfl⟩ := List.mem_map.mp hl
      exact .inr ⟨tag, text, rfl⟩
    · exact ih hl

theorem Built.text_of_isStructural {block : Block} (h : block.Built) {line : Line}
    (hl : line ∈ block.lines) (hs : line.isStructural) : line.text = "" := by
  rcases h.line hl with rfl | ⟨tag, text, rfl⟩
  · rfl
  · simp [Line.isStructural, stamp] at hs

/-! ### Steps -/

/-- What a block starts as. -/
inductive Start where
  | empty (frame : FrameId)
  | single (frame : FrameId) (tag : Tag) (text : String)
  | separator
  deriving DecidableEq

namespace Start

def block : Start → Block
  | empty frame => .empty frame
  | single frame tag text => .single frame tag text
  | separator => .separator

def frame : Start → FrameId
  | empty frame | single frame _ _ => frame
  | separator => mainFrame

lemma built (start : Start) : start.block.Built := by
  cases start with
  | empty frame => exact .empty frame
  | single frame tag text => exact .single frame tag text
  | separator => exact .separator

lemma frame_block (start : Start) : start.block.frame = start.frame := by
  cases start <;> rfl

end Start

/-- One step of building: a line more at the end, or lines before all others. -/
inductive Step where
  | push (tag : Tag) (text : String)
  | withPrefix (lines : List (Tag × String))

def step (block : Block) : Step → Block
  | .push tag text => block.push tag text
  | .withPrefix lines => block.withPrefix lines

def run (block : Block) (steps : List Step) : Block := steps.foldl step block

def Step.pushed : Step → List (Tag × String)
  | push tag text => [(tag, text)]
  | withPrefix _ => []

def Step.prefixed : Step → List (Tag × String)
  | push _ _ => []
  | withPrefix lines => lines

def pushedBy (steps : List Step) : List (Tag × String) := steps.flatMap Step.pushed

/-- The lines that steps put before all others, those of later steps first. -/
def prefixedBy (steps : List Step) : List (Tag × String) := steps.reverse.flatMap Step.prefixed

def stampAll (frame : FrameId) (lines : List (Tag × String)) : List Line :=
  lines.map fun l => stamp frame l.1 l.2

@[simp] lemma isStructural_stamp (frame : FrameId) (tag : Tag) (text : String) :
    (stamp frame tag text).isStructural = false := rfl

@[simp] lemma stampAll_append (frame : FrameId) (first second : List (Tag × String)) :
    stampAll frame (first ++ second) = stampAll frame first ++ stampAll frame second :=
  List.map_append

lemma all_isStructural_stampAll (frame : FrameId) (lines : List (Tag × String)) :
    (stampAll frame lines).all Line.isStructural = lines.isEmpty := by
  cases lines <;> simp [stampAll]

lemma countP_isStructural_stampAll (frame : FrameId) (lines : List (Tag × String)) :
    (stampAll frame lines).countP Line.isStructural = 0 := by
  simp [stampAll, List.countP_eq_zero]

lemma step_eq (block : Block) (s : Step) :
    block.step s = ⟨block.frame,
      stampAll block.frame s.prefixed ++ block.lines ++ stampAll block.frame s.pushed⟩ := by
  cases s with
  | push tag text => rfl
  | withPrefix lines => simp [step, withPrefix, Step.prefixed, Step.pushed, stampAll]

/-- The frame stays, and later steps add around what earlier ones have added. -/
theorem run_eq (block : Block) (steps : List Step) :
    block.run steps = ⟨block.frame,
      stampAll block.frame (prefixedBy steps) ++ block.lines ++
        stampAll block.frame (pushedBy steps)⟩ := by
  induction steps generalizing block with
  | nil => simp [run, prefixedBy, pushedBy, stampAll]
  | cons s rest ih =>
    change (block.step s).run rest = _
    rw [ih, step_eq]
    simp [prefixedBy, pushedBy, List.append_assoc]

lemma Built.run {block : Block} (h : block.Built) (steps : List Step) : (block.run steps).Built := by
  induction steps generalizing block with
  | nil => exact h
  | cons s rest ih =>
    cases s with
    | push tag text => exact ih (h.push tag text)
    | withPrefix lines => exact ih (h.withPrefix lines)

section Run
variable (start : Start) (steps : List Step)

lemma frame_run : (start.block.run steps).frame = start.frame := by
  rw [run_eq, start.frame_block]

lemma lines_run : (start.block.run steps).lines =
    stampAll start.frame (prefixedBy steps) ++ start.block.lines ++
      stampAll start.frame (pushedBy steps) := by
  rw [run_eq, start.frame_block]

lemma countP_isStructural_start : start.block.lines.countP Line.isStructural =
    if start = .separator then 1 else 0 := by
  cases start <;> rfl

lemma countP_isStructural_run : (start.block.run steps).lines.countP Line.isStructural =
    if start = .separator then 1 else 0 := by
  rw [lines_run, List.countP_append, List.countP_append, countP_isStructural_stampAll,
    countP_isStructural_stampAll, countP_isStructural_start, Nat.zero_add, Nat.add_zero]

lemma isSeparator_run : (start.block.run steps).isSeparator ↔
    start = .separator ∧ prefixedBy steps = [] ∧ pushedBy steps = [] := by
  rw [isSeparator, lines_run, List.all_append, List.all_append, all_isStructural_stampAll,
    all_isStructural_stampAll]
  cases start with
  | empty frame =>
    -- A block without lines has only structural lines, and yet it is no separator.
    cases prefixedBy steps <;> cases pushedBy steps <;> simp [Start.block, empty, stampAll]
  | single frame tag text => simp [Start.block, single]
  | separator => simp [Start.block, separator, Line.blank, Line.isStructural]

end Run

/-- Whatever steps follow a start, the lines of a block have the mark of its frame, but for the one blank line
of a separator. -/
theorem built_block_invariant (start : Start) (steps : List Step) :
    let block := start.block.run steps
    block.frame = start.frame ∧
    block.lines = stampAll start.frame (prefixedBy steps) ++ start.block.lines ++
      stampAll start.frame (pushedBy steps) ∧
    (∀ line ∈ block.lines, line.isStructural = false → line.frame = stampOf block.frame ∧
      (line.frame = none ↔ block.frame = mainFrame)) ∧
    (∀ line ∈ block.lines, line.isStructural → line.text = "" ∧ line.frame = none) ∧
    block.lines.countP Line.isStructural = (if start = .separator then 1 else 0) ∧
    (block.isSeparator ↔
      start = .separator ∧ prefixedBy steps = [] ∧ pushedBy steps = []) := by
  intro block
  have hbuilt : block.Built := start.built.run steps
  refine ⟨frame_run start steps, lines_run start steps, ?_, ?_, countP_isStructural_run start steps,
    isSeparator_run start steps⟩
  · intro line hl htag
    rcases hbuilt.line hl with rfl | ⟨tag, text, rfl⟩
    · cases htag
    · exact ⟨rfl, by simp [stamp, stampOf]⟩
  · intro line hl htag
    rcases hbuilt.line hl with rfl | ⟨tag, text, rfl⟩
    · exact ⟨rfl, rfl⟩
    · cases htag

theorem built_block_of_separator :
    let steps : List Step := [.push .click "d", .withPrefix [(.click, "b"), (.visit, "c")],
      .withPrefix [], .withPrefix [(.storage, "a")], .push .visit "e"]
    let block := Start.separator.block.run steps
    let click : Line := ⟨some .click, "d", none⟩
    block.lines = [⟨some .storage, "a", none⟩, ⟨some .click, "b", none⟩, ⟨some .visit, "c", none⟩,
      .blank, click, ⟨some .visit, "e", none⟩] ∧
    (click ∈ block.lines ∧ click.isStructural = false ∧ click.frame = stampOf block.frame) ∧
    (Line.blank ∈ block.lines ∧ Line.blank.isStructural ∧ Line.blank.text = "") ∧
    block.lines.countP Line.isStructural = 1 ∧ ¬ block.isSeparator := by
  intro steps block click
  obtain ⟨-, hlines, htagged, hblank, hcount, hseparator⟩ := built_block_invariant .separator steps
  have hclick : click ∈ block.lines := by decide
  have hmem : Line.blank ∈ block.lines := by decide
  exact ⟨hlines, ⟨hclick, rfl, (htagged click hclick rfl).1⟩, ⟨hmem, rfl, (hblank .blank hmem rfl).1⟩,
    hcount, fun h => absurd (hseparator.mp h) (by decide)⟩

end Retrace.Block
