import Mathlib.Data.List.Nodup
import Retrace.Proofs.FrameDeclaration

/-! Names that a test declares. All lines of the body stand in one function, and the list of the frames of the
page gets its name again for every sub-frame. -/
namespace Retrace

/-- The word after the keyword of a declaration. -/
def declaredWord? (text : List Char) : Option (List Char) :=
  (["let ", "const "].findSome? fun keyword => keyword.toList.isPrefixOf? text).map
    fun rest => rest.takeWhile (· != ' ')

/-- The names that the declarations among some lines introduce, in the order of the lines. -/
def declaredNames (lines : List Line) : List String :=
  (lines.filter (·.tag = some .declaration)).filterMap fun line =>
    (declaredWord? line.text.toList).map String.ofList

/-- The name of the list of frames. -/
def framesName : String := "frames"

/-- The sub-frames that some lines address, in the order of their first lines. -/
def usedFrames (lines : List Line) : List FrameId := (lines.filterMap Line.frame).eraseDups

section Names
variable {gap : String}

lemma declaredNames_append (lines more : List Line) :
    declaredNames (lines ++ more) = declaredNames lines ++ declaredNames more := by
  simp [declaredNames]

lemma declaredNames_eq_nil {lines : List Line} (h : ∀ line ∈ lines, line.tag ≠ some .declaration) :
    declaredNames lines = [] := by
  rw [declaredNames, List.filter_eq_nil_iff.mpr]
  · rfl
  · simpa using h

lemma declaredWord?_declareFrames (handle : String) :
    declaredWord? (Command.declareFrames.text gap handle).toList = some framesName.toList := by
  have htext : Command.declareFrames.text gap handle = "let frames = await page.frames()" := by
    unfold Command.text
    rfl
  rw [htext]
  decide

lemma declaredWord?_findFrame (handle : String) (frame : FrameId) (url : Option String) :
    declaredWord? ((Command.findFrame frame url).text gap handle).toList =
      some (frameName frame).toList := by
  obtain ⟨rest, hr⟩ := Command.text_findFrame gap handle frame url
  rw [hr]
  have hdigits : ∀ c ∈ Nat.toDigits 10 frame, (c != ' ') = true := by
    intro c hc
    have := Nat.isDigit_of_mem_toDigits (by decide) (by decide) hc
    rw [bne_iff_ne]
    rintro rfl
    exact absurd this (by decide)
  have hword : (Nat.toDigits 10 frame ++ ' ' :: rest).takeWhile (· != ' ') = Nat.toDigits 10 frame := by
    rw [List.takeWhile_append_of_pos hdigits]
    simp
  simp [declaredWord?, frameName, List.isPrefixOf?, hword]

lemma declaredNames_declared {block : Block} (h : block.OfCommands gap) (url : Option String) :
    declaredNames (block.declared gap url).lines = [framesName, frameName block.frame] := by
  have hrest := declaredNames_eq_nil fun line hl => (h.line hl).2.1
  rw [declaredNames] at hrest ⊢
  simp only [Block.declared, Line.fetch, Line.lookup, Block.stamp, decide_true,
    List.filter_cons_of_pos, List.filterMap_cons, declaredWord?_declareFrames,
    declaredWord?_findFrame, Option.map_some, String.ofList_toList, hrest]

lemma frameName_ne_framesName (frame : FrameId) : frameName frame ≠ framesName := by
  intro h
  have hd := congrArg String.toList h
  simp [frameName, framesName] at hd

end Names

/-! ### The scan -/

section Scan
variable {gap : String}

lemma nodup_eraseDups (frames : List FrameId) : frames.eraseDups.Nodup := by
  match frames with
  | [] => simp
  | first :: rest =>
    rw [List.eraseDups_cons]
    refine List.nodup_cons.mpr ⟨by simp, nodup_eraseDups _⟩
termination_by frames.length
decreasing_by exact Nat.lt_succ_of_le (List.length_filter_le _ rest)

lemma eraseDups_run_append {frame : FrameId} {run : List FrameId} (hmem : frame ∈ run)
    (h : ∀ other ∈ run, other = frame) (rest : List FrameId) :
    (run ++ rest).eraseDups = frame :: (rest.filter (· != frame)).eraseDups := by
  cases run with
  | nil => exact absurd hmem List.not_mem_nil
  | cons first run =>
    obtain ⟨rfl, hrun⟩ := List.forall_mem_cons.mp h
    have hnone : run.filter (· != first) = [] := by
      simpa using hrun
    rw [List.cons_append, List.eraseDups_cons, List.filter_append]
    exact congrArg (fun more => first :: (more ++ rest.filter _).eraseDups) hnone

/-- The frames of some lines that a registry knows, in the order of their first lines. -/
def pendingFrames (registry : Registry) (lines : List Line) : List FrameId :=
  ((lines.filterMap Line.frame).filter registry.contains).eraseDups

/-- The names that go with a frame that is found. -/
def namesOf (frame : FrameId) : List String := [framesName, frameName frame]

lemma pendingFrames_append_of_unknown {registry : Registry} {lines : List Line}
    (h : ∀ line ∈ lines, ∀ frame, line.frame = some frame → registry.contains frame = false)
    (more : List Line) : pendingFrames registry (lines ++ more) = pendingFrames registry more := by
  have hnone : (lines.filterMap Line.frame).filter registry.contains = [] := by
    rw [List.filter_eq_nil_iff]
    intro frame hf
    obtain ⟨line, hl, he⟩ := List.mem_filterMap.mp hf
    simp [h line hl frame he]
  rw [pendingFrames, List.filterMap_append, List.filter_append, hnone, List.nil_append, pendingFrames]

lemma pendingFrames_append_of_uses {registry : Registry} {block : Block} (h : block.OfCommands gap)
    (hu : block.Uses block.frame) (hc : registry.contains block.frame) (more : List Line) :
    pendingFrames registry (block.lines ++ more) =
      block.frame :: pendingFrames (registry.erase block.frame) more := by
  have hmem : block.frame ∈ (block.lines.filterMap Line.frame).filter registry.contains :=
    List.mem_filter.mpr ⟨List.mem_filterMap.mpr hu, hc⟩
  have honly : ∀ other ∈ (block.lines.filterMap Line.frame).filter registry.contains,
      other = block.frame := by
    intro other ho
    have hother : block.Uses other := List.mem_filterMap.mp (List.mem_filter.mp ho).1
    exact (h.frame_of_uses hother).1.symm
  have herase : (registry.erase block.frame).contains =
      fun other => other != block.frame && registry.contains other := by
    funext other
    exact registry.contains_erase block.frame other
  rw [pendingFrames, List.filterMap_append, List.filter_append, eraseDups_run_append hmem honly,
    List.filter_filter, pendingFrames, herase]

/-- The scan declares the names of the frames that its registry knows, each where it is first used. -/
theorem declaredNames_declareUsedFrames {blocks : List Block} (h : ∀ b ∈ blocks, b.OfCommands gap)
    (registry : Registry) :
    declaredNames ((declareUsedFrames gap blocks registry).1.flatMap Block.lines) =
      (pendingFrames registry (blocks.flatMap Block.lines)).flatMap namesOf := by
  induction blocks generalizing registry with
  | nil => rfl
  | cons first rest ih =>
    obtain ⟨hfirst, hrest⟩ := List.forall_mem_cons.mp h
    rw [declareUsedFrames_cons, List.flatMap_cons, List.flatMap_cons, declaredNames_append]
    rcases hfirst.declare registry with ⟨slot, hu, hs, he⟩ | ⟨hn, he⟩
    -- The rest is scanned with what this step leaves, where a frame just declared is pending no more.
    all_goals rw [he, ih hrest]
    · rw [declaredNames_declared hfirst,
        pendingFrames_append_of_uses hfirst hu (Registry.contains_iff.mpr ⟨slot, hs⟩)]
      rfl
    · rw [declaredNames_eq_nil fun line hl => (hfirst.line hl).2.1, List.nil_append,
        pendingFrames_append_of_unknown]
      intro line hl frame hf
      rw [Registry.contains, hn frame ⟨line, hl, hf⟩]
      rfl

lemma declaredNames_separate (blocks : List Block) :
    declaredNames ((separate blocks).flatMap Block.lines) =
      declaredNames (blocks.flatMap Block.lines) := by
  have hblank : declaredNames Block.separator.lines = [] := rfl
  have hspaced : declaredNames ((blocks.flatMap fun b => [b, .separator]).flatMap Block.lines) =
      declaredNames (blocks.flatMap Block.lines) := by
    induction blocks with
    | nil => rfl
    | cons first rest ih =>
      simp only [List.flatMap_cons, List.flatMap_append, List.flatMap_nil, List.append_nil,
        declaredNames_append, hblank, ih]
  cases blocks with
  | nil => rfl
  | cons first rest =>
    rw [separate, List.flatMap_cons, declaredNames_append, hblank, List.nil_append, hspaced]
    simp

end Scan

/-! ### The body -/

lemma pendingFrames_translate (gap : String) (events : List Event) :
    let lines := (translate gap events).blocks.flatMap Block.lines
    pendingFrames (translate gap events).frames lines = usedFrames lines := by
  intro lines
  rw [pendingFrames, usedFrames, List.filter_eq_self.mpr]
  intro frame hf
  obtain ⟨line, hl, he⟩ := List.mem_filterMap.mp hf
  obtain ⟨block, hb, hl⟩ := List.mem_flatMap.mp hl
  exact contains_frames_of_uses hb ⟨line, hl, he⟩

lemma count_frameName (frames : List FrameId) (frame : FrameId) :
    (frames.flatMap namesOf).count (frameName frame) = frames.count frame := by
  induction frames with
  | nil => rfl
  | cons first rest ih =>
    have hname : (frameName first == frameName frame) = (first == frame) := by
      rw [Bool.eq_iff_iff, beq_iff_eq, beq_iff_eq]
      exact ⟨frameName_injective, congrArg frameName⟩
    simp [namesOf, List.count_cons, ih, hname, (frameName_ne_framesName frame).symm]

lemma count_framesName (frames : List FrameId) :
    (frames.flatMap namesOf).count framesName = frames.length := by
  induction frames with
  | nil => rfl
  | cons first rest ih => simp [namesOf, ih, frameName_ne_framesName]

lemma nodup_flatMap_namesOf {frames : List FrameId} :
    (frames.flatMap namesOf).Nodup ↔ frames.length ≤ 1 := by
  constructor
  · intro h
    rw [← count_framesName]
    exact List.nodup_iff_count_le_one.mp h framesName
  · intro h
    match frames with
    | [] => exact .nil
    | [frame] => simp [namesOf, (frameName_ne_framesName frame).symm]
    | first :: second :: rest => simp at h

/-- The body declares the list of frames and then the frame, for every sub-frame that it uses: with two of
them a name comes twice. -/
theorem names_declared_per_frame (gap : String) (options : Options) (h : options.declareFrames)
    (events : List Event) :
    let translation := translate gap events
    let names := declaredNames
      ((options.arrange gap translation.blocks translation.frames).flatMap Block.lines)
    let used := usedFrames (translation.blocks.flatMap Block.lines)
    names = used.flatMap namesOf ∧
    (∀ frame, names.count (frameName frame) = if frame ∈ used then 1 else 0) ∧
    names.count framesName = used.length ∧
    (names.Nodup ↔ used.length ≤ 1) := by
  intro translation names used
  have hc : ∀ b ∈ translation.blocks, b.OfCommands gap := fun _ => ofCommands_translate
  have hscan : declaredNames ((declareUsedFrames gap translation.blocks translation.frames).1.flatMap
      Block.lines) = used.flatMap namesOf := by
    rw [declaredNames_declareUsedFrames hc, pendingFrames_translate]
  have hnames : names = used.flatMap namesOf := by
    change declaredNames _ = _
    rw [Options.arrange_eq h hc]
    split_ifs
    · rw [declaredNames_separate, hscan]
    · exact hscan
  refine ⟨hnames, fun frame => ?_, ?_, ?_⟩
  · rw [hnames, count_frameName]
    split_ifs with hf
    · exact List.count_eq_one_of_mem (nodup_eraseDups _) hf
    · exact List.count_eq_zero.mpr hf
  · rw [hnames, count_framesName]
  · rw [hnames, nodup_flatMap_namesOf]

/-- One sub-frame, left for the main page and used again. -/
theorem names_declared_for_frame_twelve :
    let events : List Event := [⟨.click (some "#a"), some 12, some "/a"⟩,
      ⟨.click (some "#b"), none, none⟩, ⟨.click (some "#c"), some 12, some "/c"⟩]
    let translation := translate "undefined" events
    let names := declaredNames
      ((Options.arrange "undefined" {} translation.blocks translation.frames).flatMap Block.lines)
    ({} : Options).declareFrames ∧ names.Nodup ∧ names.count "frame_12" = 1 := by
  intro events translation names
  obtain ⟨-, hcount, -, hnodup⟩ := names_declared_per_frame "undefined" {} rfl events
  have hused : usedFrames (translation.blocks.flatMap Block.lines) = [12] := by decide +kernel
  refine ⟨rfl, hnodup.mpr (by rw [hused]; decide), ?_⟩
  exact (hcount 12).trans (by rw [hused]; decide)

/-- Two sub-frames by turns: each is declared once, and the list of frames twice. -/
theorem frames_declared_twice_for_two_frames :
    let events : List Event := [⟨.click (some "#a"), some 1, some "/a"⟩,
      ⟨.click (some "#b"), some 2, some "/b"⟩, ⟨.click (some "#c"), some 1, none⟩]
    let translation := translate "undefined" events
    let names := declaredNames
      ((Options.arrange "undefined" {} translation.blocks translation.frames).flatMap Block.lines)
    ({} : Options).declareFrames ∧ names = ["frames", "frame_1", "frames", "frame_2"] ∧
    ¬ names.Nodup := by
  intro events translation names
  have hnames : names = ["frames", "frame_1", "frames", "frame_2"] := by decide +kernel
  refine ⟨rfl, hnames, ?_⟩
  rw [hnames]
  decide

end Retrace
