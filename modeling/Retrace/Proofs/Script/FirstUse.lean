import Retrace.Proofs.BuiltBlock
import Retrace.Proofs.FrameDeclaration

/-! Which blocks the scan declares a frame in, as a condition on the blocks before the scan: a block does when
it is the first to use that frame and the registry has the frame. -/
namespace Retrace

namespace Block

/-- A block with a line that does more than keep others apart. -/
def IsTagged (block : Block) : Prop := ∃ line ∈ block.lines, ¬ line.isStructural

instance (block : Block) : Decidable block.IsTagged :=
  inferInstanceAs (Decidable (∃ line ∈ block.lines, ¬ line.isStructural))

theorem Built.uses_iff {block : Block} (h : block.Built) {frame : FrameId} :
    block.Uses frame ↔ block.frame = frame ∧ frame ≠ mainFrame ∧ block.IsTagged := by
  constructor
  · rintro ⟨line, hl, hf⟩
    rcases h.line hl with rfl | ⟨tag, text, rfl⟩
    · simp [Line.blank] at hf
    · obtain ⟨hframe, hmain⟩ := stampOf_eq_some.mp hf
      exact ⟨hframe, hmain, _, hl, by simp [Line.isStructural, stamp]⟩
  · rintro ⟨hframe, hmain, line, hl, hs⟩
    rcases h.line hl with rfl | ⟨tag, text, rfl⟩
    · simp [Line.isStructural, Line.blank] at hs
    · exact ⟨_, hl, stampOf_eq_some.mpr ⟨hframe, hmain⟩⟩

/-- A block that is the first to use its frame, after the blocks `before`, with the frame at hand in the
registry. -/
structure FirstUse (registry : Registry) (before : List Block) (block : Block) : Prop where
  tagged : block.IsTagged
  sub : block.frame ≠ mainFrame
  known : registry.contains block.frame
  first : ∀ b ∈ before, b.frame = block.frame → ¬ b.IsTagged

instance (registry : Registry) (before : List Block) (block : Block) :
    Decidable (FirstUse registry before block) :=
  decidable_of_iff (block.IsTagged ∧ block.frame ≠ mainFrame ∧ registry.contains block.frame ∧
      ∀ b ∈ before, b.frame = block.frame → ¬ b.IsTagged)
    ⟨fun ⟨tagged, sub, known, first⟩ => ⟨tagged, sub, known, first⟩,
      fun ⟨tagged, sub, known, first⟩ => ⟨tagged, sub, known, first⟩⟩

/-- The two lines that find a sub-frame, both of them declarations that carry its mark. -/
def findingLines (gap : String) (frame : FrameId) (url : Option String) : List Line :=
  [⟨some .declaration, Command.declareFrames.text gap (handleOf frame), some frame⟩,
    ⟨some .declaration, (Command.findFrame frame url).text gap (handleOf frame), some frame⟩]

/-- The block as it stands after the scan, by the blocks before it and the registry at the start. -/
def afterScan (gap : String) (registry : Registry) (before : List Block) (block : Block) : Block :=
  if FirstUse registry before block then
    { block with
      lines := findingLines gap block.frame (registry.url? block.frame) ++ block.lines }
  else block

variable {gap : String} {registry : Registry} {first block : Block} {before : List Block}

lemma declared_eq_of_sub (h : block.frame ≠ mainFrame) (url : Option String) :
    block.declared gap url =
      { block with lines := findingLines gap block.frame url ++ block.lines } := by
  simp [declared, findingLines, Line.fetch, Line.lookup, stamp, stampOf, h]

/-- A step declares a built block as a first use, or does nothing. -/
theorem Built.declare (h : block.Built) (gap : String) (registry : Registry) :
    (∃ slot, FirstUse registry [] block ∧ registry.slot? block.frame = some slot ∧
      block.declare gap registry = (block.declared gap slot, registry.erase block.frame)) ∨
    (¬ FirstUse registry [] block ∧ block.declare gap registry = (block, registry)) := by
  have hown : ∀ frame, block.Uses frame → block.frame = frame := fun _ hu => (h.uses_iff.mp hu).1
  rcases declare_of_uses_own hown gap registry with ⟨slot, hu, hs, he⟩ | ⟨hn, he⟩
  · obtain ⟨-, hsub, htagged⟩ := h.uses_iff.mp hu
    exact .inl ⟨slot, ⟨htagged, hsub, Registry.contains_iff.mpr ⟨slot, hs⟩, by simp⟩, hs, he⟩
  · refine .inr ⟨?_, he⟩
    rintro ⟨htagged, hsub, hknown, -⟩
    simp [Registry.contains, hn _ (h.uses_iff.mpr ⟨rfl, hsub, htagged⟩)] at hknown

lemma Built.declare_fst (h : block.Built) (gap : String) (registry : Registry) :
    (block.declare gap registry).1 = block.afterScan gap registry [] := by
  rcases h.declare gap registry with ⟨slot, hfirst, hs, he⟩ | ⟨hn, he⟩
  · rw [he, afterScan, if_pos hfirst, declared_eq_of_sub hfirst.sub, Registry.url?, hs,
      Option.join_some]
  · rw [he, afterScan, if_neg hn]

lemma Built.firstUse_cons (h : first.Built) (gap : String) :
    FirstUse registry (first :: before) block ↔
      FirstUse (first.declare gap registry).2 before block := by
  rcases h.declare gap registry with ⟨slot, hu, hs, he⟩ | ⟨hn, he⟩
  · rw [he]
    constructor
    · rintro ⟨htagged, hsub, hknown, hall⟩
      obtain ⟨hfirst, hbefore⟩ := List.forall_mem_cons.mp hall
      have hne : block.frame ≠ first.frame := fun heq => hfirst heq.symm hu.tagged
      exact ⟨htagged, hsub, by simp [Registry.contains_erase, hne, hknown], hbefore⟩
    · rintro ⟨htagged, hsub, hknown, hbefore⟩
      rw [Registry.contains_erase, Bool.and_eq_true, bne_iff_ne] at hknown
      refine ⟨htagged, hsub, hknown.2, List.forall_mem_cons.mpr ⟨?_, hbefore⟩⟩
      exact fun heq => absurd heq.symm hknown.1
  · rw [he]
    constructor
    · rintro ⟨htagged, hsub, hknown, hall⟩
      exact ⟨htagged, hsub, hknown, (List.forall_mem_cons.mp hall).2⟩
    · rintro ⟨htagged, hsub, hknown, hbefore⟩
      refine ⟨htagged, hsub, hknown, List.forall_mem_cons.mpr ⟨?_, hbefore⟩⟩
      exact fun heq ht => hn ⟨ht, heq ▸ hsub, heq ▸ hknown, by simp⟩

lemma Built.slot?_left_of_uses (h : block.Built) {frame : FrameId}
    (hu : (block.declare gap registry).1.Uses frame) :
    (block.declare gap registry).2.slot? frame = none := by
  have hown (line : Line) (hl : line ∈ block.lines) (hf : line.frame = some frame) :
      block.frame = frame ∧ frame ≠ mainFrame ∧ block.IsTagged := h.uses_iff.mp ⟨line, hl, hf⟩
  rcases h.declare gap registry with ⟨slot, -, -, he⟩ | ⟨hn, he⟩
  · rw [he] at hu ⊢
    have hframe : block.frame = frame := by
      obtain ⟨line, hl, hf⟩ := hu
      rcases List.mem_cons.mp hl with rfl | hl
      · exact (Line.frame_fetch.mp hf).1
      rcases List.mem_cons.mp hl with rfl | hl
      · exact (Line.frame_lookup.mp hf).1
      · exact (hown line hl hf).1
    rw [hframe, Registry.slot?_erase_self]
  · rw [he] at hu ⊢
    obtain ⟨line, hl, hf⟩ := hu
    obtain ⟨rfl, hsub, htagged⟩ := hown line hl hf
    by_contra hs
    exact hn ⟨htagged, hsub, Option.isSome_iff_ne_none.mpr hs, by simp⟩

lemma Built.afterScan_cons (h : first.Built) :
    block.afterScan gap registry (first :: before) =
      block.afterScan gap (first.declare gap registry).2 before := by
  have hiff : FirstUse registry (first :: before) block ↔
      FirstUse (first.declare gap registry).2 before block := h.firstUse_cons gap
  unfold afterScan
  by_cases hu : FirstUse registry (first :: before) block
  · rw [if_pos hu, if_pos (hiff.mp hu)]
    -- The step may have taken a frame from the registry, but not that of the block.
    have hurl : (first.declare gap registry).2.url? block.frame = registry.url? block.frame := by
      rcases h.declare gap registry with ⟨slot, hfirst, -, he⟩ | ⟨-, he⟩
      · have hne : block.frame ≠ first.frame :=
          fun heq => hu.first first List.mem_cons_self heq.symm hfirst.tagged
        rw [he, Registry.url?, Registry.slot?_erase_of_ne hne, Registry.url?]
      · rw [he]
    rw [hurl]
  · rw [if_neg hu, if_neg (mt hiff.mpr hu)]

end Block

/-! ### The scan -/

/-- The frames of the blocks that are the first to use them. -/
def IsDeclared (registry : Registry) (blocks : List Block) (frame : FrameId) : Prop :=
  ∃ k : Fin blocks.length,
    Block.FirstUse registry (blocks.take k) blocks[k] ∧ blocks[k].frame = frame

instance (registry : Registry) (blocks : List Block) (frame : FrameId) :
    Decidable (IsDeclared registry blocks frame) :=
  inferInstanceAs (Decidable (∃ k : Fin blocks.length,
    Block.FirstUse registry (blocks.take k) blocks[k] ∧ blocks[k].frame = frame))

/-- The registry without the frames that are declared. -/
def Registry.without (registry : Registry) (blocks : List Block) : Registry :=
  ⟨registry.entries.filter fun entry => ¬ IsDeclared registry blocks entry.1⟩

section Scan
variable {gap : String} {blocks : List Block} {registry : Registry}

lemma isDeclared_cons {first : Block} (h : first.Built) (gap : String) (registry : Registry)
    (rest : List Block) (frame : FrameId) : IsDeclared registry (first :: rest) frame ↔
      (Block.FirstUse registry [] first ∧ first.frame = frame) ∨
        IsDeclared (first.declare gap registry).2 rest frame := by
  constructor
  · rintro ⟨⟨_ | k, hk⟩, hu, hf⟩
    · exact .inl ⟨hu, hf⟩
    · exact .inr ⟨⟨k, Nat.lt_of_succ_lt_succ hk⟩, (h.firstUse_cons gap).mp hu, hf⟩
  · rintro (⟨hu, hf⟩ | ⟨⟨k, hk⟩, hu, hf⟩)
    · exact ⟨⟨0, Nat.zero_lt_succ _⟩, hu, hf⟩
    · exact ⟨⟨k + 1, Nat.succ_lt_succ hk⟩, (h.firstUse_cons gap).mpr hu, hf⟩

lemma length_declareUsedFrames (gap : String) (blocks : List Block) (registry : Registry) :
    (declareUsedFrames gap blocks registry).1.length = blocks.length := by
  induction blocks generalizing registry with
  | nil => rfl
  | cons first rest ih => rw [declareUsedFrames_cons, List.length_cons, ih, List.length_cons]

lemma getElem?_declareUsedFrames (h : ∀ b ∈ blocks, b.Built) (registry : Registry)
    {k : Nat} (hk : k < blocks.length) : (declareUsedFrames gap blocks registry).1[k]? =
      some (blocks[k].afterScan gap registry (blocks.take k)) := by
  induction blocks generalizing registry k with
  | nil => exact absurd hk (Nat.not_lt_zero k)
  | cons first rest ih =>
    obtain ⟨hfirst, hrest⟩ := List.forall_mem_cons.mp h
    rw [declareUsedFrames_cons]
    -- The registry that the first step leaves stands for the first block among the earlier ones.
    cases k with
    | zero => rw [List.getElem?_cons_zero, hfirst.declare_fst]; rfl
    | succ k =>
      rw [List.getElem?_cons_succ, ih hrest _ (Nat.lt_of_succ_lt_succ hk)]
      exact congrArg some hfirst.afterScan_cons.symm

lemma left_declareUsedFrames (h : ∀ b ∈ blocks, b.Built) (registry : Registry) :
    (declareUsedFrames gap blocks registry).2 = registry.without blocks := by
  induction blocks generalizing registry with
  | nil =>
    have hnone : ∀ frame, ¬ IsDeclared registry [] frame := fun _ ⟨k, _⟩ => k.elim0
    exact congrArg Registry.mk (List.filter_eq_self.mpr fun _ _ => decide_eq_true (hnone _)).symm
  | cons first rest ih =>
    obtain ⟨hfirst, hrest⟩ := List.forall_mem_cons.mp h
    rw [left_declareUsedFrames_cons, ih hrest]
    have hcons := isDeclared_cons hfirst gap registry rest
    rcases hfirst.declare gap registry with ⟨slot, hu, -, he⟩ | ⟨hn, he⟩
    · simp only [Registry.without, hcons, he, hu, true_and, Registry.erase, List.filter_filter]
      congr 1
      apply List.filter_congr
      intro entry _
      by_cases hf : entry.1 = first.frame
      · simp [hf]
      · simp [hf, Ne.symm hf]
    · simp only [Registry.without, hcons, he, hn, false_and, false_or]

lemma slot?_left_declareUsedFrames (gap : String) (blocks : List Block) {frame : FrameId}
    (h : registry.slot? frame = none) :
    (declareUsedFrames gap blocks registry).2.slot? frame = none := by
  induction blocks generalizing registry with
  | nil => exact h
  | cons first rest ih =>
    rw [left_declareUsedFrames_cons]
    apply ih
    rcases Block.declare_cases gap first registry with ⟨-, he⟩ | ⟨pending, slot, -, -, he⟩
    · rw [he]
      exact h
    · rw [he, Registry.slot?_erase, h, ite_self]

lemma slot?_left_of_uses (h : ∀ b ∈ blocks, b.Built) (registry : Registry) :
    ∀ b ∈ (declareUsedFrames gap blocks registry).1, ∀ frame, b.Uses frame →
      (declareUsedFrames gap blocks registry).2.slot? frame = none := by
  induction blocks generalizing registry with
  | nil => simp [declareUsedFrames]
  | cons first rest ih =>
    obtain ⟨hfirst, hrest⟩ := List.forall_mem_cons.mp h
    rw [declareUsedFrames_cons, left_declareUsedFrames_cons]
    refine List.forall_mem_cons.mpr ⟨fun frame hu => ?_, ih hrest _⟩
    -- The frame was declared in the first block or never known, and the scan adds none.
    exact slot?_left_declareUsedFrames gap rest (hfirst.slot?_left_of_uses hu)

lemma declareUsedFrames_eq_self
    (h : ∀ b ∈ blocks, ∀ frame, b.Uses frame → registry.slot? frame = none) :
    declareUsedFrames gap blocks registry = (blocks, registry) := by
  induction blocks with
  | nil => rfl
  | cons first rest ih =>
    obtain ⟨hfirst, hrest⟩ := List.forall_mem_cons.mp h
    have hpending : first.pendingFrame? registry = none := by
      apply List.find?_eq_none.mpr
      intro frame hm
      simp [Registry.contains, hfirst frame (List.mem_filterMap.mp hm)]
    rw [declareUsedFrames, hpending, ih hrest]

/-- The scan puts the lines that find a frame before the block that uses it first and changes no other. -/
theorem declareUsedFrames_at_first_uses (gap : String) (blocks : List Block) (registry : Registry)
    (h : ∀ block ∈ blocks, block.Built) :
    let scanned := (declareUsedFrames gap blocks registry).1
    let left := (declareUsedFrames gap blocks registry).2
    scanned.length = blocks.length ∧
    (∀ (k : Nat) (hk : k < blocks.length),
      scanned[k]? = some (blocks[k].afterScan gap registry (blocks.take k))) ∧
    left = registry.without blocks ∧
    declareUsedFrames gap scanned left = (scanned, left) :=
  ⟨length_declareUsedFrames gap blocks registry,
    fun _ hk => getElem?_declareUsedFrames h registry hk,
    left_declareUsedFrames h registry,
    declareUsedFrames_eq_self (slot?_left_of_uses h registry)⟩

theorem declareUsedFrames_among_unused_frames :
    let blocks : List Block :=
      [.empty 3, .separator, .single 5 .click "a", (Block.empty 3).push .click "b",
        .single mainFrame .visit "c", (Block.single 7 .click "d").withPrefix [(.change, "e")],
        .single 3 .click "f", .single 7 .click "g"]
    let registry : Registry := ⟨[(0, some "/"), (3, some "/three"), (7, none), (9, none)]⟩
    let scanned := (declareUsedFrames "gap" blocks registry).1
    let left := (declareUsedFrames "gap" blocks registry).2
    (∀ block ∈ blocks, block.Built) ∧
    scanned[0]? = some (.empty 3) ∧
    scanned[3]? = some ⟨3, Block.findingLines "gap" 3 (some "/three") ++ [Block.stamp 3 .click "b"]⟩ ∧
    scanned[6]? = some (.single 3 .click "f") ∧
    left = ⟨[(0, some "/"), (9, none)]⟩ ∧
    declareUsedFrames "gap" scanned left = (scanned, left) := by
  intro blocks registry scanned left
  have hbuilt : ∀ block ∈ blocks, block.Built := by
    simp only [blocks, List.forall_mem_cons]
    exact ⟨.empty 3, .separator, .single 5 _ _, .push (.empty 3) _ _, .single _ _ _,
      .withPrefix (.single 7 _ _) _, .single 3 _ _, .single 7 _ _, by simp⟩
  obtain ⟨-, hscanned, hleft, hagain⟩ :=
    declareUsedFrames_at_first_uses "gap" blocks registry hbuilt
  exact ⟨hbuilt, (hscanned 0 (by decide)).trans (by decide),
    (hscanned 3 (by decide)).trans (by decide), (hscanned 6 (by decide)).trans (by decide),
    hleft.trans (by decide), hagain⟩

end Scan
end Retrace
