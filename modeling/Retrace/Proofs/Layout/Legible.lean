import Retrace.Proofs.BuiltBlock
import Retrace.Proofs.Layout.Text

/-! The text of a test determines its lines. The row that ends a section is indented less than any row of a
line, so the first row that looks like it is one. -/
namespace Retrace.Layout

/-- Lines that take one row each; the ones that keep others apart have no text. -/
def Plain (line : Line) : Prop :=
  '\n' ∉ line.text.toList ∧ (line.isStructural → line.text = "")

/-- What a reader of a test sees of a line. -/
def shown (line : Line) : Bool × String := (line.isStructural, line.text)

/-- The row that ends a section, be it the setup or the test case. -/
def footer : List Char := setupFooter.toList

lemma break_not_mem_footer : '\n' ∉ footer := by decide

lemma row_append_inj {row other rest more : List Char} (h : '\n' ∉ row) (ho : '\n' ∉ other)
    (he : row ++ '\n' :: rest = other ++ '\n' :: more) : row = other ∧ rest = more := by
  -- A row ends at the first break.
  have htake {row rest : List Char} (h : '\n' ∉ row) :
      (row ++ '\n' :: rest).takeWhile (· != '\n') = row := by
    rw [List.takeWhile_append_of_pos]
    · simp
    · exact fun c hc => bne_iff_ne.mpr fun hbreak => h (hbreak ▸ hc)
  have hrow := congrArg (List.takeWhile (· != '\n')) he
  rw [htake h, htake ho] at hrow
  subst hrow
  exact ⟨rfl, (List.cons.inj (List.append_cancel_left he)).2⟩

section Rows
variable {options : Options} {line other : Line}

lemma indent_eq (options : Options) :
    ∃ more, options.indent.toList = ' ' :: ' ' :: ' ' :: more ∧ '\n' ∉ more := by
  unfold Options.indent
  split_ifs
  · exact ⟨[' '], rfl, by decide⟩
  · exact ⟨[], rfl, by decide⟩

lemma row_of_structural (h : Plain line) (hs : line.isStructural) : row options line = [] := by
  simp [row, hs, h.2 hs]

lemma row_of_not_structural (hs : ¬ line.isStructural) :
    row options line = options.indent.toList ++ line.text.toList := by
  simp [row, hs]

lemma break_not_mem_row (h : Plain line) : '\n' ∉ row options line := by
  by_cases hs : line.isStructural
  · rw [row_of_structural h hs]
    exact List.not_mem_nil
  · obtain ⟨more, he, hm⟩ := indent_eq options
    rw [row_of_not_structural hs, he]
    simp [hm, h.1]

lemma row_ne_footer (h : Plain line) : row options line ≠ footer := by
  by_cases hs : line.isStructural
  · rw [row_of_structural h hs]
    decide
  · obtain ⟨more, he, -⟩ := indent_eq options
    rw [row_of_not_structural hs, he]
    simp [footer, setupFooter]

lemma row_append_ne_footer (h : Plain line) (rest more : List Char) :
    row options line ++ '\n' :: rest ≠ footer ++ '\n' :: more :=
  fun he => row_ne_footer h (row_append_inj (break_not_mem_row h) break_not_mem_footer he).1

lemma shown_of_row_eq (h : Plain line) (ho : Plain other)
    (he : row options line = row options other) : shown line = shown other := by
  obtain ⟨more, hindent, -⟩ := indent_eq options
  by_cases hs : line.isStructural
  · by_cases hso : other.isStructural
    · simp [shown, hs, hso, h.2 hs, ho.2 hso]
    · rw [row_of_structural h hs, row_of_not_structural hso, hindent] at he
      simp at he
  · by_cases hso : other.isStructural
    · rw [row_of_not_structural hs, row_of_structural ho hso, hindent] at he
      simp at he
    · rw [row_of_not_structural hs, row_of_not_structural hso] at he
      have htext := String.toList_injective (List.append_cancel_left he)
      simp [shown, hs, hso, htext]

end Rows

/-- Lines that are followed by the end of their section are determined by the text, and so is what stands
after that end. -/
theorem shown_of_section_eq (options : Options) (between : List Char) {rest more : List Char}
    {lines others : List Line} (h : ∀ l ∈ lines, Plain l) (ho : ∀ l ∈ others, Plain l)
    (he : (lines.flatMap fun l => row options l ++ '\n' :: between) ++ (footer ++ '\n' :: rest) =
      (others.flatMap fun l => row options l ++ '\n' :: between) ++ (footer ++ '\n' :: more)) :
    lines.map shown = others.map shown ∧ rest = more := by
  induction lines generalizing others with
  | nil =>
    cases others with
    | nil => exact ⟨rfl, (row_append_inj break_not_mem_footer break_not_mem_footer he).2⟩
    | cons other others =>
      -- The end of the one section would be a row of a line of the other.
      simp only [List.flatMap_cons, List.append_assoc, List.cons_append] at he
      exact absurd he.symm (row_append_ne_footer (ho other List.mem_cons_self) _ _)
  | cons line lines ih =>
    have hline := h line List.mem_cons_self
    cases others with
    | nil =>
      simp only [List.flatMap_cons, List.append_assoc, List.cons_append] at he
      exact absurd he (row_append_ne_footer hline _ _)
    | cons other others =>
      have hother := ho other List.mem_cons_self
      simp only [List.flatMap_cons, List.append_assoc, List.cons_append] at he
      obtain ⟨hrow, htail⟩ :=
        row_append_inj (break_not_mem_row hline) (break_not_mem_row hother) he
      have hlines : ∀ l ∈ lines, Plain l := fun l hl => h l (List.mem_cons_of_mem _ hl)
      have hothers : ∀ l ∈ others, Plain l := fun l hl => ho l (List.mem_cons_of_mem _ hl)
      obtain ⟨hshown, hrest⟩ := ih hlines hothers (List.append_cancel_left htail)
      exact ⟨by simp only [List.map_cons, shown_of_row_eq hline hother hrow, hshown], hrest⟩

/-! ### Sections of a test -/

lemma toList_setup (options : Options) {blocks : List Block} (h : blocks ≠ []) :
    (setup options blocks).toList = setupHeader.toList ++
      (((blocks.flatMap Block.lines).flatMap fun l => row options l ++ ['\n']) ++
        (footer ++ ['\n', '\n'])) := by
  have hempty : blocks.isEmpty = false := by simpa using h
  rw [setup, if_neg (by simp [hempty])]
  simp [toList_lines, footer]

lemma shown_of_setup_eq (options : Options) {rest more : List Char} {blocks others : List Block}
    (h : ∀ l ∈ blocks.flatMap Block.lines, Plain l) (ho : ∀ l ∈ others.flatMap Block.lines, Plain l)
    (he : (setup options blocks).toList ++ (caseHeader.toList ++ rest) =
      (setup options others).toList ++ (caseHeader.toList ++ more)) :
    (blocks.flatMap Block.lines).map shown = (others.flatMap Block.lines).map shown ∧
      rest = more := by
  by_cases hb : blocks = []
  · by_cases hbo : others = []
    · subst hb hbo
      exact ⟨rfl, List.append_cancel_left (List.append_cancel_left he)⟩
    · rw [toList_setup options hbo, hb] at he
      simp [setup, setupHeader, caseHeader] at he
  · by_cases hbo : others = []
    · rw [toList_setup options hb, hbo] at he
      simp [setup, setupHeader, caseHeader] at he
    · rw [toList_setup options hb, toList_setup options hbo] at he
      simp only [List.append_assoc, List.append_cancel_left_eq] at he
      obtain ⟨hshown, hrest⟩ := shown_of_section_eq options [] h ho he
      exact ⟨hshown, List.append_cancel_left (List.cons.inj hrest).2⟩

lemma exists_test_eq (options : Options) : ∃ head tail : List Char, ∀ blocks setupBlocks,
    (test options blocks setupBlocks).toList =
      head ++ ((setup options setupBlocks).toList ++ (caseHeader.toList ++
        '\n' :: ((body options blocks).toList ++ (footer ++ '\n' :: tail)))) := by
  refine ⟨(if options.wrapDescribe then suiteHeader ++ spacer options else "").toList,
    (spacer options ++ if options.wrapDescribe then suiteFooter ++ spacer options else "").toList, ?_⟩
  intro blocks setupBlocks
  simp [test, caseFooter, footer, setupFooter]

lemma infix_lines_of_mem (options : Options) (lineEnd : String) {blocks : List Block} {line : Line}
    (h : line ∈ blocks.flatMap Block.lines) :
    line.text.toList <:+: (lines options lineEnd blocks).toList := by
  have htext : line.text.toList <:+: row options line ++ lineEnd.toList :=
    (List.suffix_append _ _).isInfix.trans (List.prefix_append _ _).isInfix
  apply htext.trans
  rw [toList_lines]
  exact List.infix_of_mem_flatten (List.mem_map_of_mem h)

theorem infix_test_of_mem (options : Options) {blocks setupBlocks : List Block} {line : Line}
    (h : line ∈ (blocks ++ setupBlocks).flatMap Block.lines) :
    line.text.toList <:+: (test options blocks setupBlocks).toList := by
  obtain ⟨head, tail, htest⟩ := exists_test_eq options
  rw [htest]
  apply List.infix_append_of_infix_right
  rcases List.mem_append.mp (List.flatMap_append ▸ h) with h | h
  · have hbody := infix_lines_of_mem options (bodyEnd options) h
    rw [← body_eq] at hbody
    apply List.infix_append_of_infix_right
    apply List.infix_append_of_infix_right
    apply List.infix_cons
    exact List.infix_append_of_infix_left hbody
  · have hlines := infix_lines_of_mem options "\n" h
    have hne : setupBlocks ≠ [] := by
      rintro rfl
      exact absurd h List.not_mem_nil
    apply List.infix_append_of_infix_left
    rw [toList_lines] at hlines
    rw [toList_setup options hne]
    apply List.infix_append_of_infix_right
    exact List.infix_append_of_infix_left hlines

/-- Blocks built of lines that take one row each. -/
def PlainBlocks (blocks : List Block) : Prop :=
  ∀ block ∈ blocks, block.Built ∧ ∀ line ∈ block.lines, '\n' ∉ line.text.toList

lemma PlainBlocks.plain {blocks : List Block} (h : PlainBlocks blocks) :
    ∀ line ∈ blocks.flatMap Block.lines, Plain line := by
  intro line hl
  obtain ⟨block, hb, hl⟩ := List.mem_flatMap.mp hl
  obtain ⟨hbuilt, hrow⟩ := h block hb
  exact ⟨hrow line hl, hbuilt.text_of_isStructural hl⟩

/-- Tests with the same text have the same lines in body and setup: none is lost, doubled, joined or taken for
a header. -/
theorem test_determines_lines (options : Options) {blocks others setupBlocks setupOthers : List Block}
    (h : PlainBlocks blocks) (ho : PlainBlocks others) (hs : PlainBlocks setupBlocks)
    (hso : PlainBlocks setupOthers)
    (he : test options blocks setupBlocks = test options others setupOthers) :
    (blocks.flatMap Block.lines).map shown = (others.flatMap Block.lines).map shown ∧
      (setupBlocks.flatMap Block.lines).map shown =
        (setupOthers.flatMap Block.lines).map shown := by
  obtain ⟨head, tail, htest⟩ := exists_test_eq options
  have hchars := congrArg String.toList he
  rw [htest, htest] at hchars
  obtain ⟨hsetup, hbody⟩ :=
    shown_of_setup_eq options hs.plain hso.plain (List.append_cancel_left hchars)
  obtain ⟨between, hend⟩ := exists_bodyEnd_eq options
  rw [body_eq, body_eq, toList_lines, toList_lines, hend] at hbody
  have hlines := shown_of_section_eq options between h.plain ho.plain (List.cons.inj hbody).2
  exact ⟨hlines.1, hsetup⟩

/-- Lines that imitate the end of a section, in blocks that are cut in two ways. -/
theorem test_determines_imitating_lines :
    let blocks : List Block := [Block.separator.push .click "\x7d)", .empty 7]
    let others : List Block := [.separator, .single 7 .change "\x7d)"]
    let setupBlocks : List Block := [.single mainFrame .cookie "  \x7d)"]
    let setupOthers : List Block := [.empty mainFrame, .single 5 .cookie "  \x7d)"]
    (PlainBlocks blocks ∧ PlainBlocks others ∧ PlainBlocks setupBlocks ∧ PlainBlocks setupOthers ∧
      test {} blocks setupBlocks = test {} others setupOthers) ∧
    (blocks.flatMap Block.lines).map shown = (others.flatMap Block.lines).map shown ∧
    (setupBlocks.flatMap Block.lines).map shown =
      (setupOthers.flatMap Block.lines).map shown := by
  intro blocks others setupBlocks setupOthers
  have h : PlainBlocks blocks := List.forall_mem_cons.mpr
    ⟨⟨.push .separator _ _, by decide⟩, List.forall_mem_singleton.mpr ⟨.empty 7, by decide⟩⟩
  have ho : PlainBlocks others := List.forall_mem_cons.mpr
    ⟨⟨.separator, by decide⟩, List.forall_mem_singleton.mpr ⟨.single 7 _ _, by decide⟩⟩
  have hs : PlainBlocks setupBlocks :=
    List.forall_mem_singleton.mpr ⟨.single mainFrame _ _, by decide⟩
  have hso : PlainBlocks setupOthers := List.forall_mem_cons.mpr
    ⟨⟨.empty mainFrame, by decide⟩, List.forall_mem_singleton.mpr ⟨.single 5 _ _, by decide⟩⟩
  have he : test {} blocks setupBlocks = test {} others setupOthers := rfl
  exact ⟨⟨h, ho, hs, hso, he⟩, test_determines_lines {} h ho hs hso he⟩

end Retrace.Layout
