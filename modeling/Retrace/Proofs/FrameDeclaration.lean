import Retrace.Proofs.CommandBlock
import Retrace.Script.Spacing

/-! Every sub-frame that a body addresses is declared once, before its first line. The scan takes a frame out
of the registry when it declares it, so what it may still declare is what is left there. -/
namespace Retrace

namespace Line

/-- The line that asks for the frames of the page on behalf of a frame. -/
def fetch (gap : String) (frame : FrameId) : Line :=
  Block.stamp frame .declaration (Command.declareFrames.text gap (handleOf frame))

/-- The line that finds a frame by its URL. -/
def lookup (gap : String) (frame : FrameId) (url : Option String) : Line :=
  Block.stamp frame .declaration ((Command.findFrame frame url).text gap (handleOf frame))

lemma frame_fetch {gap : String} {frame other : FrameId} :
    (fetch gap frame).frame = some other ↔ frame = other ∧ other ≠ mainFrame :=
  Block.stampOf_eq_some

lemma frame_lookup {gap : String} {frame other : FrameId} {url : Option String} :
    (lookup gap frame url).frame = some other ↔ frame = other ∧ other ≠ mainFrame :=
  Block.stampOf_eq_some

lemma not_finds_fetch (gap : String) (frame other : FrameId) : ¬ (fetch gap frame).Finds other := by
  rintro ⟨gap', url, handle, h⟩
  exact Command.declareFrames_text_ne_findFrame gap gap' (handleOf frame) handle other url h

lemma finds_lookup {gap : String} {frame other : FrameId} {url : Option String}
    (h : (lookup gap frame url).Finds other) : frame = other := by
  obtain ⟨gap', url', handle, h⟩ := h
  exact @Command.findFrame_text_injective gap gap' (handleOf frame) handle _ _ _ _ h

end Line

namespace Block

/-- The block with the two lines before it that find its frame. -/
def declared (gap : String) (url : Option String) (block : Block) : Block :=
  ⟨block.frame, .fetch gap block.frame :: .lookup gap block.frame url :: block.lines⟩

/-- One step of the scan: the block as it is laid out, and the frames that are left. -/
def declare (gap : String) (registry : Registry) (block : Block) : Block × Registry :=
  match block.pendingFrame? registry with
  | none => (block, registry)
  | some frame =>
    (block.withPrefix (declarationLines gap frame (registry.slot? frame).join),
      registry.erase frame)

end Block

@[simp] theorem declareUsedFrames_cons (gap : String) (block : Block) (rest : List Block)
    (registry : Registry) : (declareUsedFrames gap (block :: rest) registry).1 =
      (block.declare gap registry).1 ::
        (declareUsedFrames gap rest (block.declare gap registry).2).1 := by
  rw [declareUsedFrames, Block.declare]
  cases block.pendingFrame? registry <;> rfl

@[simp] theorem left_declareUsedFrames_cons (gap : String) (block : Block) (rest : List Block)
    (registry : Registry) : (declareUsedFrames gap (block :: rest) registry).2 =
      (declareUsedFrames gap rest (block.declare gap registry).2).2 := by
  rw [declareUsedFrames, Block.declare]
  cases block.pendingFrame? registry <;> rfl

namespace Block
variable {gap : String} {block : Block} {registry : Registry}

/-- A step does nothing to a block, or puts the two lines that find the pending frame before its lines and
forgets the frame. -/
theorem declare_cases (gap : String) (block : Block) (registry : Registry) :
    (block.pendingFrame? registry = none ∧ block.declare gap registry = (block, registry)) ∨
    ∃ frame slot, block.pendingFrame? registry = some frame ∧ registry.slot? frame = some slot ∧
      block.declare gap registry =
        (block.withPrefix (declarationLines gap frame slot), registry.erase frame) := by
  cases hp : block.pendingFrame? registry with
  | none => exact .inl ⟨rfl, by rw [declare, hp]⟩
  | some frame =>
    obtain ⟨slot, hs⟩ := Registry.contains_iff.mp (List.find?_some hp)
    exact .inr ⟨frame, slot, rfl, hs, by simp [declare, hp, hs]⟩

lemma pendingFrame?_eq_some (h : ∀ frame, block.Uses frame → block.frame = frame) {frame : FrameId} :
    block.pendingFrame? registry = some frame ↔ block.Uses frame ∧ registry.contains frame := by
  have hmem (f : FrameId) : f ∈ block.lines.filterMap Line.frame ↔ block.Uses f :=
    List.mem_filterMap
  constructor
  · intro hp
    exact ⟨(hmem frame).mp (List.mem_of_find?_eq_some hp), List.find?_some hp⟩
  · rintro ⟨hu, hc⟩
    obtain ⟨other, ho⟩ := Option.isSome_iff_exists.mp
      (List.find?_isSome.mpr ⟨frame, (hmem frame).mpr hu, hc⟩)
    have hf : other = frame := h other ((hmem other).mp (List.mem_of_find?_eq_some ho)) ▸ h frame hu
    rw [pendingFrame?, ho, hf]

theorem declare_of_uses_own (h : ∀ frame, block.Uses frame → block.frame = frame) (gap : String)
    (registry : Registry) :
    (∃ slot, block.Uses block.frame ∧ registry.slot? block.frame = some slot ∧
      block.declare gap registry = (block.declared gap slot, registry.erase block.frame)) ∨
    ((∀ frame, block.Uses frame → registry.slot? frame = none) ∧
      block.declare gap registry = (block, registry)) := by
  rcases declare_cases gap block registry with ⟨hp, he⟩ | ⟨frame, slot, hp, hs, he⟩
  · refine .inr ⟨fun frame hu => ?_, he⟩
    by_contra hs
    have hc : registry.contains frame := Option.isSome_iff_ne_none.mpr hs
    exact absurd ((pendingFrame?_eq_some h).mpr ⟨hu, hc⟩) (by simp [hp])
  · obtain ⟨hu, -⟩ := (pendingFrame?_eq_some h).mp hp
    obtain rfl := h frame hu
    refine .inl ⟨slot, hu, hs, he.trans ?_⟩
    simp [declared, withPrefix, declarationLines, Line.fetch, Line.lookup, Command.tag]

theorem OfCommands.declare (h : block.OfCommands gap) (registry : Registry) :
    (∃ slot, block.Uses block.frame ∧ registry.slot? block.frame = some slot ∧
      block.declare gap registry = (block.declared gap slot, registry.erase block.frame)) ∨
    ((∀ frame, block.Uses frame → registry.slot? frame = none) ∧
      block.declare gap registry = (block, registry)) :=
  declare_of_uses_own (fun _ hu => (h.frame_of_uses hu).1) gap registry

/-- No line of the block speaks of the frame. -/
def Avoids (frame : FrameId) (block : Block) : Prop :=
  ∀ line ∈ block.lines, line.frame ≠ some frame ∧ ¬ line.Finds frame

/-- No line of the block declares the frame. -/
def Settled (frame : FrameId) (block : Block) : Prop :=
  ∀ line ∈ block.lines,
    (line.frame = some frame → line.tag ≠ some .declaration) ∧ ¬ line.Finds frame

lemma Avoids.settled {frame : FrameId} (h : block.Avoids frame) : block.Settled frame :=
  fun line hl => ⟨fun hf => absurd hf (h line hl).1, (h line hl).2⟩

lemma OfCommands.settled (h : block.OfCommands gap) (frame : FrameId) : block.Settled frame :=
  fun _ hl => ⟨fun _ => (h.line hl).2.1, (h.line hl).2.2 frame⟩

lemma OfCommands.avoids (h : block.OfCommands gap) {frame : FrameId} (hu : ¬ block.Uses frame) :
    block.Avoids frame :=
  fun line hl => ⟨fun hf => hu ⟨line, hl, hf⟩, (h.line hl).2.2 frame⟩

lemma forall_lines_declared {url : Option String} {p : Line → Prop} :
    (∀ line ∈ (block.declared gap url).lines, p line) ↔
      p (.fetch gap block.frame) ∧ p (.lookup gap block.frame url) ∧ ∀ line ∈ block.lines, p line := by
  simp [declared]

lemma forall_lines_declared_of_other {frame : FrameId} {p : Line → Prop}
    (hother : ∀ line : Line, line.frame ≠ some frame → ¬ line.Finds frame → p line)
    (h : ∀ line ∈ block.lines, p line) (hf : block.frame ≠ frame) (url : Option String) :
    ∀ line ∈ (block.declared gap url).lines, p line := by
  refine forall_lines_declared.mpr ⟨hother _ ?_ ?_, hother _ ?_ ?_, h⟩
  · exact fun he => hf (Line.frame_fetch.mp he).1
  · exact Line.not_finds_fetch gap block.frame frame
  · exact fun he => hf (Line.frame_lookup.mp he).1
  · exact fun he => hf (Line.finds_lookup he)

lemma Avoids.declared {frame : FrameId} (h : block.Avoids frame) (hf : block.frame ≠ frame)
    (url : Option String) : (block.declared gap url).Avoids frame :=
  forall_lines_declared_of_other (fun _ hframe hfinds => ⟨hframe, hfinds⟩) h hf url

lemma Settled.declared {frame : FrameId} (h : block.Settled frame) (hf : block.frame ≠ frame)
    (url : Option String) : (block.declared gap url).Settled frame :=
  forall_lines_declared_of_other (fun _ hframe hfinds => ⟨fun he => absurd he hframe, hfinds⟩) h hf url

end Block

section Run
variable {gap : String} {blocks : List Block}

theorem mem_declareUsedFrames (h : ∀ b ∈ blocks, b.OfCommands gap) {registry : Registry}
    {block : Block} (hb : block ∈ (declareUsedFrames gap blocks registry).1) :
    block ∈ blocks ∨ ∃ b ∈ blocks, ∃ slot, b.Uses b.frame ∧
      registry.slot? b.frame = some slot ∧ block = b.declared gap slot := by
  induction blocks generalizing registry with
  | nil => exact absurd hb List.not_mem_nil
  | cons first rest ih =>
    obtain ⟨hfirst, hrest⟩ := List.forall_mem_cons.mp h
    rw [declareUsedFrames_cons] at hb
    rcases hfirst.declare registry with ⟨slot, hu, hs, he⟩ | ⟨-, he⟩
    all_goals
      rw [he] at hb
      rcases List.mem_cons.mp hb with rfl | hb
    · exact .inr ⟨first, List.mem_cons_self, slot, hu, hs, rfl⟩
    · rcases ih hrest hb with hb | ⟨b, hm, slot', hu', hs', rfl⟩
      · exact .inl (List.mem_cons_of_mem _ hb)
      · refine .inr ⟨b, List.mem_cons_of_mem _ hm, slot', hu', ?_, rfl⟩
        rw [Registry.slot?_erase] at hs'
        split_ifs at hs'
        exact hs'
    · exact .inl List.mem_cons_self
    · rcases ih hrest hb with hb | ⟨b, hm, rest⟩
      · exact .inl (List.mem_cons_of_mem _ hb)
      · exact .inr ⟨b, List.mem_cons_of_mem _ hm, rest⟩

theorem settled_declareUsedFrames (h : ∀ b ∈ blocks, b.OfCommands gap) {registry : Registry}
    {frame : FrameId} (hr : registry.slot? frame = none) :
    ∀ b ∈ (declareUsedFrames gap blocks registry).1, b.Settled frame := by
  intro block hb
  rcases mem_declareUsedFrames h hb with hb | ⟨b, hm, slot, -, hs, rfl⟩
  · exact (h block hb).settled frame
  · refine ((h b hm).settled frame).declared ?_ slot
    rintro rfl
    simp [hr] at hs

theorem avoids_declareUsedFrames (h : ∀ b ∈ blocks, b.OfCommands gap) {registry : Registry}
    {frame : FrameId} (hu : ∀ b ∈ blocks, ¬ b.Uses frame) :
    ∀ b ∈ (declareUsedFrames gap blocks registry).1, b.Avoids frame := by
  intro block hb
  rcases mem_declareUsedFrames h hb with hb | ⟨b, hm, slot, hub, -, rfl⟩
  · exact (h block hb).avoids (hu block hb)
  · refine ((h b hm).avoids (hu b hm)).declared ?_ slot
    rintro rfl
    exact hu b hm hub

/-- A list of blocks that declares a frame in the first block that uses it, and nowhere else. -/
def DeclaredIn (gap : String) (frame : FrameId) (url : Option String) (blocks : List Block) : Prop :=
  ∃ (before : List Block) (block : Block) (after : List Block),
    blocks = before ++ block.declared gap url :: after ∧
    block.OfCommands gap ∧ block.Uses frame ∧
    (∀ b ∈ before, b.Avoids frame) ∧ ∀ b ∈ after, b.Settled frame

/-- A frame of the registry that some block uses is declared in the first such block; the scan keeps its slot
up to there. -/
theorem declaredIn_declareUsedFrames (h : ∀ b ∈ blocks, b.OfCommands gap) {registry : Registry}
    {frame : FrameId} {slot : Option String} (hs : registry.slot? frame = some slot)
    (hu : ∃ b ∈ blocks, b.Uses frame) :
    DeclaredIn gap frame slot (declareUsedFrames gap blocks registry).1 := by
  induction blocks generalizing registry with
  | nil => simp at hu
  | cons first rest ih =>
    obtain ⟨hfirst, hrest⟩ := List.forall_mem_cons.mp h
    rw [declareUsedFrames_cons]
    by_cases huf : first.Uses frame
    · obtain ⟨rfl, -⟩ := hfirst.frame_of_uses huf
      rcases hfirst.declare registry with ⟨slot', -, hs', he⟩ | ⟨hn, -⟩
      · obtain rfl : slot' = slot := Option.some.inj (hs'.symm.trans hs)
        rw [he]
        exact ⟨[], first, _, rfl, hfirst, huf, by simp,
          settled_declareUsedFrames hrest (Registry.slot?_erase_self registry _)⟩
      · simp [hn _ huf] at hs
    · have hu' : ∃ b ∈ rest, b.Uses frame := by simpa [huf] using hu
      rcases hfirst.declare registry with ⟨slot', hu0, -, he⟩ | ⟨-, he⟩
      all_goals rw [he]
      · have hne : frame ≠ first.frame := by
          rintro rfl
          exact huf hu0
        obtain ⟨before, block, after, hd, hc, hub, hbefore, hafter⟩ :=
          ih hrest (by rw [Registry.slot?_erase_of_ne hne, hs]) hu'
        refine ⟨first.declared gap slot' :: before, block, after, by rw [hd]; rfl, hc, hub, ?_, hafter⟩
        exact List.forall_mem_cons.mpr ⟨(hfirst.avoids huf).declared hne.symm slot', hbefore⟩
      · obtain ⟨before, block, after, hd, hc, hub, hbefore, hafter⟩ := ih hrest hs hu'
        refine ⟨first :: before, block, after, by rw [hd]; rfl, hc, hub, ?_, hafter⟩
        exact List.forall_mem_cons.mpr ⟨hfirst.avoids huf, hbefore⟩

end Run

/-! ### The lines as they are laid out -/

lemma avoids_separator (frame : FrameId) : Block.separator.Avoids frame := by
  intro line hl
  obtain rfl : line = .blank := List.mem_singleton.mp hl
  refine ⟨by simp [Line.blank], ?_⟩
  rintro ⟨gap, url, handle, h⟩
  obtain ⟨rest, hr⟩ := Command.text_findFrame gap handle frame url
  rw [← h] at hr
  simp [Line.blank] at hr

lemma mem_spaced {blocks : List Block} {block : Block}
    (h : block ∈ blocks.flatMap fun b => [b, .separator]) : block = .separator ∨ block ∈ blocks := by
  obtain ⟨b, hb, h⟩ := List.mem_flatMap.mp h
  rcases List.mem_cons.mp h with rfl | h
  · exact .inr hb
  · exact .inl (List.mem_singleton.mp h)

lemma separate_append_cons (before : List Block) (block : Block) (after : List Block) :
    ∃ before' after', separate (before ++ block :: after) = before' ++ block :: after' ∧
      (∀ b ∈ before', b = .separator ∨ b ∈ before) ∧ ∀ b ∈ after', b = .separator ∨ b ∈ after := by
  refine ⟨.separator :: before.flatMap fun b => [b, .separator],
    .separator :: after.flatMap fun b => [b, .separator], ?_, ?_, ?_⟩
  · cases before <;> simp [separate]
  · intro b hb
    exact (List.mem_cons.mp hb).elim .inl mem_spaced
  · intro b hb
    exact (List.mem_cons.mp hb).elim .inl mem_spaced

lemma forall_mem_separate {blocks : List Block} {p : Block → Prop} (hs : p .separator)
    (h : ∀ b ∈ blocks, p b) : ∀ b ∈ separate blocks, p b := by
  cases blocks with
  | nil => simp [separate]
  | cons first rest =>
    intro b hb
    rcases (List.mem_cons.mp hb).imp_right mem_spaced with rfl | rfl | hb
    · exact hs
    · exact hs
    · exact h b hb

lemma DeclaredIn.separate {gap : String} {frame : FrameId} {url : Option String}
    {blocks : List Block} (h : DeclaredIn gap frame url blocks) :
    DeclaredIn gap frame url (separate blocks) := by
  obtain ⟨before, block, after, rfl, hc, hu, hbefore, hafter⟩ := h
  obtain ⟨before', after', he, hb', ha'⟩ := separate_append_cons before (block.declared gap url) after
  refine ⟨before', block, after', he, hc, hu, fun b hb => ?_, fun b hb => ?_⟩
  · rcases hb' b hb with rfl | hb
    · exact avoids_separator frame
    · exact hbefore b hb
  · rcases ha' b hb with rfl | hb
    · exact (avoids_separator frame).settled
    · exact hafter b hb

/-- Lines that find a frame once: the two lines of the declaration stand together, right before the first
other line of the frame. -/
def DeclaredOnce (gap : String) (frame : FrameId) (url : Option String) (lines : List Line) : Prop :=
  ∃ (before : List Line) (next : Line) (after : List Line),
    lines = before ++ .fetch gap frame :: .lookup gap frame url :: next :: after ∧
    next.frame = some frame ∧ next.tag ≠ some .declaration ∧
    (∀ line ∈ before, line.frame ≠ some frame) ∧
    (∀ line ∈ after, line.frame = some frame → line.tag ≠ some .declaration) ∧
    ∀ line ∈ before ++ .fetch gap frame :: next :: after, ¬ line.Finds frame

theorem DeclaredIn.once {gap : String} {frame : FrameId} {url : Option String}
    {blocks : List Block} (h : DeclaredIn gap frame url blocks) :
    DeclaredOnce gap frame url (blocks.flatMap Block.lines) := by
  obtain ⟨before, block, after, rfl, hc, hu, hbefore, hafter⟩ := h
  obtain ⟨hf, -⟩ := hc.frame_of_uses hu
  -- All lines of a block carry its mark, so the first of them is the first line of the frame.
  obtain ⟨next, rest, hl⟩ : ∃ next rest, block.lines = next :: rest := by
    obtain ⟨line, hm, -⟩ := hu
    exact List.exists_cons_of_ne_nil (List.ne_nil_of_mem hm)
  have hrest : ∀ line ∈ rest ++ after.flatMap Block.lines,
      (line.frame = some frame → line.tag ≠ some .declaration) ∧ ¬ line.Finds frame := by
    intro line hm
    rcases List.mem_append.mp hm with hm | hm
    · exact hc.settled frame line (by simp [hl, hm])
    · obtain ⟨b, hb, hm⟩ := List.mem_flatMap.mp hm
      exact hafter b hb line hm
  have hpre : ∀ line ∈ before.flatMap Block.lines,
      line.frame ≠ some frame ∧ ¬ line.Finds frame := by
    intro line hm
    obtain ⟨b, hb, hm⟩ := List.mem_flatMap.mp hm
    exact hbefore b hb line hm
  have hnext := hc.line (hl ▸ List.mem_cons_self : next ∈ block.lines)
  refine ⟨before.flatMap Block.lines, next, rest ++ after.flatMap Block.lines, ?_, ?_, hnext.2.1,
    fun line hm => (hpre line hm).1, fun line hm => (hrest line hm).1, ?_⟩
  · simp [Block.declared, hl, hf]
  · obtain ⟨line, hm, hframe⟩ := hu
    rw [hnext.1, ← (hc.line hm).1, hframe]
  · intro line hm
    rcases List.mem_append.mp hm with hm | hm
    · exact (hpre line hm).2
    · rcases List.mem_cons.mp hm with rfl | hm
      · exact Line.not_finds_fetch gap frame frame
      · rcases List.mem_cons.mp hm with rfl | hm
        · exact hnext.2.2 frame
        · exact (hrest line hm).2

/-- An empty registry declares nothing, so it needs no case of its own. -/
theorem Options.arrange_eq {options : Options} (h : options.declareFrames) {gap : String}
    {blocks : List Block} (hc : ∀ b ∈ blocks, b.OfCommands gap) (frames : Registry) :
    options.arrange gap blocks frames =
      if options.usesSeparators then separate (declareUsedFrames gap blocks frames).1
      else (declareUsedFrames gap blocks frames).1 := by
  have hempty : frames.isEmpty → (declareUsedFrames gap blocks frames).1 = blocks := by
    intro he
    induction blocks with
    | nil => rfl
    | cons first rest ih =>
      obtain ⟨hfirst, hrest⟩ := List.forall_mem_cons.mp hc
      rcases hfirst.declare frames with ⟨slot, -, hs, -⟩ | ⟨-, hd⟩
      · have hn := Registry.contains_of_isEmpty he first.frame
        simp [Registry.contains, hs] at hn
      · rw [declareUsedFrames_cons, hd, ih hrest]
  by_cases he : frames.isEmpty
  · simp [arrange, he, hempty he]
  · simp [arrange, h, he]

lemma Options.forall_lines_arrange {options : Options} {gap : String} {blocks : List Block}
    {frames : Registry} {p : Line → Prop} (hs : ∀ line ∈ Block.separator.lines, p line)
    (hb : ∀ b ∈ blocks, ∀ line ∈ b.lines, p line)
    (hd : ∀ b ∈ (declareUsedFrames gap blocks frames).1, ∀ line ∈ b.lines, p line) :
    ∀ line ∈ (options.arrange gap blocks frames).flatMap Block.lines, p line := by
  intro line hl
  obtain ⟨b, hm, hl⟩ := List.mem_flatMap.mp hl
  simp only [arrange] at hm
  split_ifs at hm
  · exact forall_mem_separate (p := fun b => ∀ line ∈ b.lines, p line) hs hd b hm line hl
  · exact forall_mem_separate (p := fun b => ∀ line ∈ b.lines, p line) hs hb b hm line hl
  · exact hd b hm line hl
  · exact hb b hm line hl

lemma Options.forall_lines_arrange_of_commands {options : Options} {gap : String} {blocks : List Block}
    (hc : ∀ b ∈ blocks, b.OfCommands gap) {frames : Registry} {p : Line → Prop} (hs : p .blank)
    (hb : ∀ b ∈ blocks, ∀ line ∈ b.lines, p line)
    (hd : ∀ b ∈ blocks, b.Uses b.frame → ∀ slot, frames.slot? b.frame = some slot →
      p (.fetch gap b.frame) ∧ p (.lookup gap b.frame slot)) :
    ∀ line ∈ (options.arrange gap blocks frames).flatMap Block.lines, p line := by
  refine forall_lines_arrange ?_ hb ?_
  · intro line hl
    rw [List.mem_singleton.mp hl]
    exact hs
  · intro b hm
    rcases mem_declareUsedFrames hc hm with hkept | ⟨block, hblock, slot, hu, hslot, rfl⟩
    · exact hb b hkept
    · obtain ⟨hfetch, hlookup⟩ := hd block hblock hu slot hslot
      exact Block.forall_lines_declared.mpr ⟨hfetch, hlookup, hb block hblock⟩

lemma main_not_declared {gap : String} {blocks : List Block} (hc : ∀ b ∈ blocks, b.OfCommands gap)
    {frames : Registry} : ∀ b ∈ (declareUsedFrames gap blocks frames).1, ∀ line ∈ b.lines,
      line.frame = none → line.tag ≠ some .declaration := by
  intro block hb
  rcases mem_declareUsedFrames hc hb with hb | ⟨b, hm, slot, hu, -, rfl⟩
  · exact fun line hl _ => ((hc block hb).line hl).2.1
  · obtain ⟨-, hmain⟩ := (hc b hm).frame_of_uses hu
    have hstamp : Block.stampOf b.frame ≠ none := by simp [Block.stampOf, hmain]
    refine Block.forall_lines_declared.mpr ⟨fun he => absurd he hstamp, fun he => absurd he hstamp, ?_⟩
    exact fun line hl _ => ((hc b hm).line hl).2.1

lemma declaredOnce_arrange {options : Options} (h : options.declareFrames) {gap : String}
    {blocks : List Block} (hc : ∀ b ∈ blocks, b.OfCommands gap) {frames : Registry} {frame : FrameId}
    {slot : Option String} (hs : frames.slot? frame = some slot) (hu : ∃ b ∈ blocks, b.Uses frame) :
    DeclaredOnce gap frame slot ((options.arrange gap blocks frames).flatMap Block.lines) := by
  have hin := declaredIn_declareUsedFrames hc hs hu
  rw [Options.arrange_eq h hc]
  split_ifs
  · exact hin.separate.once
  · exact hin.once

lemma avoids_arrange (options : Options) {gap : String} {blocks : List Block}
    (hc : ∀ b ∈ blocks, b.OfCommands gap) (frames : Registry) {frame : FrameId}
    (hu : ∀ b ∈ blocks, ¬ b.Uses frame) :
    ∀ line ∈ (options.arrange gap blocks frames).flatMap Block.lines,
      line.frame ≠ some frame ∧ ¬ line.Finds frame :=
  Options.forall_lines_arrange (avoids_separator frame)
    (fun b hb => (hc b hb).avoids (hu b hb)) (avoids_declareUsedFrames hc hu)

/-- With frames declared, every sub-frame that the body addresses is found once, by its URL, right before the
first line that addresses it. -/
theorem frames_declared_once_before_use (gap : String) (options : Options)
    (h : options.declareFrames) (events : List Event) :
    let translation := translate gap events
    let lines := (options.arrange gap translation.blocks translation.frames).flatMap Block.lines
    (∀ frame, frame ≠ mainFrame →
      ((∃ block ∈ translation.blocks, block.Uses frame) →
        ∃ url, translation.frames.slot? frame = some url ∧ DeclaredOnce gap frame url lines) ∧
      ((∀ block ∈ translation.blocks, ¬ block.Uses frame) →
        ∀ line ∈ lines, line.frame ≠ some frame ∧ ¬ line.Finds frame)) ∧
    ∀ line ∈ lines, line.frame = none → line.tag ≠ some .declaration := by
  intro translation lines
  have hc : ∀ b ∈ translation.blocks, b.OfCommands gap := fun _ => ofCommands_translate
  refine ⟨fun frame hf => ⟨?_, fun hu => ?_⟩, ?_⟩
  · rintro ⟨block, hb, hu⟩
    obtain ⟨url, hs⟩ := Registry.contains_iff.mp (contains_frames_of_uses hb hu)
    exact ⟨url, hs, declaredOnce_arrange h hc hs ⟨block, hb, hu⟩⟩
  · exact avoids_arrange options hc translation.frames hu
  · exact Options.forall_lines_arrange (by simp [Block.separator, Line.blank])
      (fun b hb line hl _ => ((hc b hb).line hl).2.1) (main_not_declared hc)

/-- A frame first seen by an event without lines keeps the URL of that event, and the wait of the navigation
is no use. -/
theorem frame_declared_once_after_keydown :
    ({} : Options).declareFrames ∧
    let events : List Event :=
      [⟨.keydown none none none, some 12, some "/a"⟩, ⟨.click (some "#b"), none, none⟩,
        ⟨.navigation (some "/c"), some 12, some "/d"⟩, ⟨.click none, some 1, none⟩]
    let translation := translate "gap" events
    translation.frames.slot? 12 = some (some "/a") ∧
    DeclaredOnce "gap" 12 (some "/a")
      ((Options.arrange "gap" {} translation.blocks translation.frames).flatMap Block.lines) := by
  refine ⟨rfl, ?_⟩
  intro events translation
  have hslot : translation.frames.slot? 12 = some (some "/a") := by decide
  refine ⟨hslot, ?_⟩
  have huse : ∃ block ∈ translation.blocks, block.Uses 12 := by
    refine ⟨Command.block "gap" 12 (handleOf 12) (.visit (some "/c")), ?_, ?_⟩
    · simp [translation, events, translate_eq, Action.bodyBlocks, Action.bodyCommands, Event.frame]
    · exact ⟨_, List.mem_singleton_self _, rfl⟩
  obtain ⟨url, hs, hd⟩ :=
    ((frames_declared_once_before_use "gap" {} rfl events).1 12 (by decide)).1 huse
  obtain rfl : url = some "/a" := Option.some.inj (hs.symm.trans hslot)
  exact hd

end Retrace
