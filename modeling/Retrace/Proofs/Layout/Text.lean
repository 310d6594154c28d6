import Mathlib.Data.List.Basic
import Retrace.Script.Layout

/-! The text of a test row by row. A line takes a row with its indent and ends with a break, so what
stands after it starts a row of its own. -/
namespace Retrace.Layout

/-- The indent of a line and its text, up to the break that ends the line. -/
def row (options : Options) (line : Line) : List Char :=
  (if line.isStructural then [] else options.indent.toList) ++ line.text.toList

/-- What a line of the body ends with where there are blocks. -/
def bodyEnd (options : Options) : String := if options.usesJoined then "\n \n" else "\n"

lemma toList_lines (options : Options) (lineEnd : String) (blocks : List Block) :
    (lines options lineEnd blocks).toList =
      (blocks.flatMap Block.lines).flatMap fun line => row options line ++ lineEnd.toList := by
  have hline (l : Line) : (line options lineEnd l).toList = row options l ++ lineEnd.toList := by
    unfold line row
    split_ifs <;> simp
  simp only [lines, String.toList_join, List.flatMap_map, hline]

lemma lines_append (options : Options) (lineEnd : String) (blocks more : List Block) :
    lines options lineEnd (blocks ++ more) =
      lines options lineEnd blocks ++ lines options lineEnd more := by
  apply String.toList_injective
  simp only [toList_lines, String.toList_append, List.flatMap_append]

theorem body_eq (options : Options) (blocks : List Block) :
    body options blocks = lines options (bodyEnd options) blocks := by
  cases blocks with
  | nil => rfl
  | cons block rest => simp [body, lineEnd, bodyEnd]

theorem bodyEnd_cases (options : Options) :
    bodyEnd options = "\n" ∨ bodyEnd options = "\n \n" := by
  unfold bodyEnd
  split_ifs <;> simp

lemma exists_bodyEnd_eq (options : Options) :
    ∃ between, (bodyEnd options).toList = '\n' :: between := by
  rcases bodyEnd_cases options with he | he
  · exact ⟨[], by rw [he]; rfl⟩
  · exact ⟨[' ', '\n'], by rw [he]; rfl⟩

end Retrace.Layout
