import Retrace.Proofs.FrameDeclaration

/-! The two passes over the blocks of a body only add. Without the separators and the lines that declare
frames the blocks are back as they were, and since neither pass sees what the other adds, they may run
in either order. -/
namespace Retrace

namespace Block

/-- A block to which no pass has added anything. -/
def Undecorated (block : Block) : Prop :=
  ∀ line ∈ block.lines, line.tag ≠ some .declaration ∧ ¬ line.isStructural

instance (block : Block) : Decidable block.Undecorated :=
  inferInstanceAs (Decidable (∀ line ∈ block.lines, line.tag ≠ some .declaration ∧ ¬ line.isStructural))

/-- The block without the lines that declare frames. -/
def undeclared (block : Block) : Block :=
  { block with lines := block.lines.filter fun line => line.tag ≠ some .declaration }

variable {block : Block}

lemma Undecorated.isSeparator (h : block.Undecorated) : block.isSeparator = false := by
  unfold Block.isSeparator
  cases hl : block.lines with
  | nil => rfl
  | cons first rest =>
    have hfirst := (h first (hl ▸ List.mem_cons_self)).2
    simp [hfirst]

lemma Undecorated.undeclared_eq (h : block.Undecorated) : block.undeclared = block := by
  have hlines : block.lines.filter (fun line => line.tag ≠ some .declaration) = block.lines := by
    apply List.filter_eq_self.mpr
    intro line hl
    exact decide_eq_true (h line hl).1
  rw [undeclared, hlines]

lemma withPrefix_declarationLines (block : Block) (gap : String) (frame : FrameId)
    (slot : Option String) :
    (block.withPrefix (declarationLines gap frame slot)).isSeparator = false ∧
      (block.withPrefix (declarationLines gap frame slot)).undeclared = block.undeclared := by
  constructor
  · simp [isSeparator, declarationLines, stamp, Line.isStructural]
  · simp [undeclared, declarationLines, stamp, Command.tag]

lemma Undecorated.declare (h : block.Undecorated) (gap : String) (registry : Registry) :
    (block.declare gap registry).1.isSeparator = false ∧
      (block.declare gap registry).1.undeclared = block := by
  rcases declare_cases gap block registry with ⟨-, he⟩ | ⟨frame, slot, -, -, he⟩
  · rw [he]
    exact ⟨h.isSeparator, h.undeclared_eq⟩
  · obtain ⟨hseparator, hundeclared⟩ := block.withPrefix_declarationLines gap frame slot
    rw [he]
    exact ⟨hseparator, hundeclared.trans h.undeclared_eq⟩

end Block

/-- The blocks without all that the passes add. -/
def undecorated (blocks : List Block) : List Block :=
  (blocks.filter fun block => !block.isSeparator).map Block.undeclared

lemma undecorated_append (blocks more : List Block) :
    undecorated (blocks ++ more) = undecorated blocks ++ undecorated more := by
  simp [undecorated]

lemma undecorated_cons_of_not_separator {block : Block} (h : block.isSeparator = false)
    (rest : List Block) : undecorated (block :: rest) = block.undeclared :: undecorated rest := by
  rw [undecorated, List.filter_cons_of_pos (by simp [h])]
  rfl

lemma undecorated_eq {blocks : List Block} (h : ∀ block ∈ blocks, block.Undecorated) :
    undecorated blocks = blocks := by
  induction blocks with
  | nil => rfl
  | cons first rest ih =>
    obtain ⟨hfirst, hrest⟩ := List.forall_mem_cons.mp h
    rw [undecorated_cons_of_not_separator hfirst.isSeparator, hfirst.undeclared_eq, ih hrest]

lemma undecorated_declareUsedFrames {gap : String} {blocks : List Block}
    (h : ∀ block ∈ blocks, block.Undecorated) (registry : Registry) :
    undecorated (declareUsedFrames gap blocks registry).1 = blocks := by
  induction blocks generalizing registry with
  | nil => rfl
  | cons first rest ih =>
    obtain ⟨hfirst, hrest⟩ := List.forall_mem_cons.mp h
    obtain ⟨hseparator, hundeclared⟩ := hfirst.declare gap registry
    rw [declareUsedFrames_cons, undecorated_cons_of_not_separator hseparator, hundeclared, ih hrest]

lemma undecorated_separator : undecorated [.separator] = [] := rfl

lemma undecorated_separate (blocks : List Block) :
    undecorated (separate blocks) = undecorated blocks := by
  have hspaced (blocks : List Block) :
      undecorated (blocks.flatMap fun b => [b, .separator]) = undecorated blocks := by
    induction blocks with
    | nil => rfl
    | cons first rest ih =>
      change undecorated ([first] ++ [.separator] ++ rest.flatMap fun b => [b, .separator]) =
        undecorated ([first] ++ rest)
      simp only [undecorated_append, undecorated_separator, ih, List.append_nil]
  cases blocks with
  | nil => rfl
  | cons first rest => exact hspaced (first :: rest)

/-! ### Their order -/

lemma declare_separator (gap : String) (registry : Registry) :
    Block.separator.declare gap registry = (.separator, registry) := rfl

lemma declareUsedFrames_spaced (gap : String) (blocks : List Block) (registry : Registry) :
    declareUsedFrames gap (blocks.flatMap fun b => [b, .separator]) registry =
      ((declareUsedFrames gap blocks registry).1.flatMap (fun b => [b, .separator]),
        (declareUsedFrames gap blocks registry).2) := by
  induction blocks generalizing registry with
  | nil => rfl
  | cons first rest ih =>
    have hrest := ih (first.declare gap registry).2
    apply Prod.ext
    · simp [declare_separator, hrest]
    · simp [declare_separator, hrest]

/-- The passes add separators and declarations and touch nothing else, and it does not matter which of them
runs first. -/
theorem passes_only_add (gap : String) :
    (∀ (options : Options) (frames : Registry) (blocks : List Block),
      (∀ block ∈ blocks, block.Undecorated) →
        undecorated (options.arrange gap blocks frames) = blocks) ∧
    ∀ (blocks : List Block) (registry : Registry),
      declareUsedFrames gap (separate blocks) registry =
        (separate (declareUsedFrames gap blocks registry).1,
          (declareUsedFrames gap blocks registry).2) := by
  constructor
  · intro options frames blocks h
    simp only [Options.arrange]
    split_ifs
    · rw [undecorated_separate, undecorated_declareUsedFrames h]
    · rw [undecorated_separate, undecorated_eq h]
    · exact undecorated_declareUsedFrames h frames
    · exact undecorated_eq h
  · intro blocks registry
    cases blocks with
    | nil => rfl
    | cons first rest =>
      have hspaced := declareUsedFrames_spaced gap (first :: rest) registry
      apply Prod.ext
      · simpa [separate, declare_separator] using congrArg Prod.fst hspaced
      · simpa [separate, declare_separator] using congrArg Prod.snd hspaced

theorem passes_only_add_around_frame_block :
    let blocks : List Block :=
      [.empty 3, (Block.single 3 .click "a").push .click "b", .single mainFrame .visit "c"]
    let frames : Registry := ⟨[(3, some "/a"), (7, none)]⟩
    let arranged := Options.arrange "undefined" { blankLineStyle := .separators } blocks frames
    (∀ block ∈ blocks, block.Undecorated) ∧ arranged.length = 7 ∧
    (arranged.flatMap Block.lines).length = 9 ∧ undecorated arranged = blocks ∧
    (declareUsedFrames "undefined" (separate blocks) frames).2 = ⟨[(7, none)]⟩ := by
  intro blocks frames arranged
  obtain ⟨hadd, horder⟩ := passes_only_add "undefined"
  have hblocks : ∀ block ∈ blocks, block.Undecorated := by decide
  refine ⟨hblocks, by decide, by decide, hadd _ frames blocks hblocks, ?_⟩
  rw [horder]
  decide

end Retrace
