import Retrace.Proofs.FrameDeclaration

/-! Handles in lines. What a line is a call on and what it binds can be read from the start of its text, and
both are the handle for the mark of the line. -/
namespace Retrace

/-- The handle for a mark: that of the main page where a line has none. -/
def markHandle : Option FrameId → String
  | none => "cy"
  | some frame => "frame_" ++ toString frame

lemma markHandle_stampOf (frame : FrameId) : markHandle (Block.stampOf frame) = handleOf frame := by
  unfold Block.stampOf handleOf
  split_ifs <;> rfl

namespace Line

def CallsOn (handle : String) (line : Line) : Prop := (handle ++ ".").toList <+: line.text.toList

def Binds (handle : String) (line : Line) : Prop :=
  ("const " ++ handle ++ " = ").toList <+: line.text.toList

/-- The line of a declaration that finds a frame, which is not the one that asks for all frames. -/
def IsLookup (line : Line) : Prop :=
  line.tag = some .declaration ∧ line.text ≠ "let frames = await page.frames()"

instance (handle : String) (line : Line) : Decidable (line.CallsOn handle) :=
  inferInstanceAs (Decidable (_ <+: _))

instance (handle : String) (line : Line) : Decidable (line.Binds handle) :=
  inferInstanceAs (Decidable (_ <+: _))

instance (line : Line) : Decidable line.IsLookup := inferInstanceAs (Decidable (_ ∧ _))

end Line

section Handles

lemma frame_of_frameName_append {frame other : FrameId} {c : Char} (hc : c.isDigit = false)
    {rest more : List Char}
    (h : (frameName frame).toList ++ c :: rest = (frameName other).toList ++ c :: more) :
    frame = other := by
  simp only [frameName, String.toList_append, Nat.toString_eq_repr, Nat.toList_repr,
    List.append_assoc, List.append_cancel_left_eq] at h
  exact eq_of_toDigits_append hc h

lemma mark_of_markHandle_append {mark other : Option FrameId} {c : Char} (hc : c.isDigit = false)
    {rest more : List Char}
    (h : (markHandle mark).toList ++ c :: rest = (markHandle other).toList ++ c :: more) :
    mark = other := by
  cases mark with
  | none =>
    cases other with
    | none => rfl
    | some other => simp [markHandle] at h
  | some frame =>
    cases other with
    | none => simp [markHandle] at h
    | some other => exact congrArg some (frame_of_frameName_append hc h)

variable {mark other : Option FrameId} {line : Line}

lemma Line.CallsOn.unique (h : line.CallsOn (markHandle mark)) (ho : line.CallsOn (markHandle other)) :
    mark = other := by
  obtain ⟨rest, hr⟩ := h
  obtain ⟨more, hm⟩ := ho
  have he : (markHandle mark).toList ++ '.' :: rest = (markHandle other).toList ++ '.' :: more := by
    simpa using hr.trans hm.symm
  exact mark_of_markHandle_append (by decide) he

lemma Line.Binds.unique (h : line.Binds (markHandle mark)) (ho : line.Binds (markHandle other)) :
    mark = other := by
  obtain ⟨rest, hr⟩ := h
  obtain ⟨more, hm⟩ := ho
  have he : (markHandle mark).toList ++ ' ' :: '=' :: ' ' :: rest =
      (markHandle other).toList ++ ' ' :: '=' :: ' ' :: more := by
    simpa using hr.trans hm.symm
  exact mark_of_markHandle_append (by decide) he

lemma Line.not_callsOn (mark : Option FrameId) {line : Line}
    (h : line.text = "" ∨ ∃ word ∈ ["window.", "const ", "let "], word.toList <+: line.text.toList) :
    ¬ line.CallsOn (markHandle mark) := by
  rintro ⟨rest, hr⟩
  rcases h with hblank | ⟨word, hw, more, hm⟩
  · simp [hblank] at hr
  · rw [← hm] at hr
    simp only [List.mem_cons, List.not_mem_nil, or_false] at hw
    rcases hw with rfl | rfl | rfl <;> cases mark <;> simp [markHandle] at hr

lemma Line.not_binds (handle : String) {line : Line}
    (h : line.text = "" ∨ (∃ word ∈ ["window.", "let "], word.toList <+: line.text.toList) ∨
      ∃ mark, line.CallsOn (markHandle mark)) : ¬ line.Binds handle := by
  rintro ⟨rest, hr⟩
  rcases h with hblank | ⟨word, hw, more, hm⟩ | ⟨mark, more, hm⟩
  · simp [hblank] at hr
  · rw [← hm] at hr
    simp only [List.mem_cons, List.not_mem_nil, or_false] at hw
    rcases hw with rfl | rfl <;> simp at hr
  · rw [← hm] at hr
    cases mark <;> simp [markHandle] at hr

end Handles

/-! ### Commands and declarations -/

section Commands
variable {gap : String} {frame : FrameId} {mark : Option FrameId} {command : Command}

/-- A command calls on the handle for its mark and on no other one, and if it stores, on none. -/
theorem Command.line_callsOn_iff (h : command.tag ≠ .declaration) :
    (command.line gap frame).CallsOn (markHandle mark) ↔
      command.tag ≠ .storage ∧ mark = Block.stampOf frame := by
  by_cases hs : command.tag = .storage
  · have hnot : ¬ (command.line gap frame).CallsOn (markHandle mark) :=
      Line.not_callsOn mark (.inr ⟨"window.", by simp, text_stores hs gap _⟩)
    simp [hs, hnot]
  · have hown : (command.line gap frame).CallsOn (markHandle (Block.stampOf frame)) := by
      rw [markHandle_stampOf]
      exact text_calls h hs gap _
    constructor
    · intro hcall
      exact ⟨hs, hcall.unique hown⟩
    · rintro ⟨-, rfl⟩
      exact hown

lemma Command.line_not_binds (h : command.tag ≠ .declaration) (handle : String) :
    ¬ (command.line gap frame).Binds handle := by
  apply Line.not_binds
  by_cases hs : command.tag = .storage
  · exact .inr (.inl ⟨"window.", by simp, text_stores hs gap _⟩)
  · exact .inr (.inr ⟨_, (line_callsOn_iff h).mpr ⟨hs, rfl⟩⟩)

lemma Line.text_fetch : (Line.fetch gap frame).text = "let frames = await page.frames()" := by
  unfold fetch Block.stamp Command.text
  rfl

lemma Command.text_findFrame_eq (gap handle : String) (frame : FrameId) (url : Option String) :
    (findFrame frame url).text gap handle =
      "const " ++ markHandle (some frame) ++ " = " ++
        ("frames.find(f => f.url() === " ++ literal gap url ++ ")") := by
  unfold text
  simp [markHandle, frameName, ← String.toList_inj]

lemma Line.text_lookup {url : Option String} : (Line.lookup gap frame url).text =
    "const " ++ markHandle (some frame) ++ " = " ++
      ("frames.find(f => f.url() === " ++ Command.literal gap url ++ ")") :=
  Command.text_findFrame_eq gap (handleOf frame) frame url

lemma Line.Finds.binds {line : Line} (h : line.Finds frame) : line.Binds (markHandle (some frame)) := by
  obtain ⟨gap, url, handle, ht⟩ := h
  unfold Binds
  rw [ht, Command.text_findFrame_eq]
  exact ⟨_, String.toList_append.symm⟩

lemma Line.not_callsOn_fetch : ¬ (Line.fetch gap frame).CallsOn (markHandle mark) := by
  refine Line.not_callsOn mark (.inr ⟨"let ", by decide, ?_⟩)
  rw [text_fetch]
  decide

lemma Line.not_binds_fetch (handle : String) : ¬ (Line.fetch gap frame).Binds handle := by
  refine Line.not_binds handle (.inr (.inl ⟨"let ", by decide, ?_⟩))
  rw [text_fetch]
  decide

lemma Line.not_callsOn_lookup {url : Option String} :
    ¬ (Line.lookup gap frame url).CallsOn (markHandle mark) := by
  refine Line.not_callsOn mark (.inr ⟨"const ", by decide, ?_⟩)
  rw [text_lookup]
  simp

lemma Line.isLookup_lookup {url : Option String} : (Line.lookup gap frame url).IsLookup := by
  refine ⟨rfl, ?_⟩
  rw [text_lookup]
  intro he
  have hl := congrArg String.toList he
  simp at hl

theorem Line.binds_lookup_iff {url : Option String} (h : frame ≠ mainFrame) :
    (Line.lookup gap frame url).Binds (markHandle mark) ↔ mark = (Line.lookup gap frame url).frame := by
  have hmark : (Line.lookup gap frame url).frame = some frame := frame_lookup.mpr ⟨rfl, h⟩
  have hown : (Line.lookup gap frame url).Binds (markHandle (some frame)) :=
    Line.Finds.binds ⟨gap, url, handleOf frame, rfl⟩
  rw [hmark]
  constructor
  · exact fun hbinds => hbinds.unique hown
  · rintro rfl
    exact hown

end Commands

/-! ### The lines of a body -/

lemma marks_arrange (gap : String) (events : List Event) (options : Options) :
    ∀ line ∈ (options.arrange gap (translate gap events).blocks (translate gap events).frames).flatMap
        Block.lines,
      (∀ mark, line.CallsOn (markHandle mark) →
        line.tag ≠ some .declaration ∧ mark = line.frame) ∧
      ∀ mark, line.Binds (markHandle mark) ↔ line.IsLookup ∧ mark = line.frame := by
  have hc : ∀ b ∈ (translate gap events).blocks, b.OfCommands gap := fun _ => ofCommands_translate
  refine Options.forall_lines_arrange_of_commands hc ?_ ?_ ?_
  · have hblank : Line.blank.text = "" := rfl
    refine ⟨fun mark hcall => absurd hcall (Line.not_callsOn mark (.inl hblank)), fun mark => ?_⟩
    have hnot := Line.not_binds (markHandle mark) (.inl hblank)
    have hlookup : ¬ Line.blank.IsLookup := fun h => by cases h.1
    simp [hnot, hlookup]
  · intro block hb line hl
    obtain ⟨commands, htags, he⟩ := hc block hb
    rw [he] at hl
    obtain ⟨command, hm, rfl⟩ := List.mem_map.mp hl
    change (∀ mark, (command.line gap block.frame).CallsOn _ → _) ∧
      ∀ mark, (command.line gap block.frame).Binds _ ↔ _
    have htag : some command.tag ≠ some Tag.declaration := by simpa using htags command hm
    refine ⟨fun mark hcall =>
      ⟨htag, ((Command.line_callsOn_iff (htags command hm)).mp hcall).2⟩, fun mark => ?_⟩
    have hnot : ¬ (command.line gap block.frame).Binds (markHandle mark) :=
      Command.line_not_binds (htags command hm) _
    simp [hnot, Line.IsLookup, Block.stamp, htags command hm]
  · intro block hb hu slot _
    have hmain := (hc block hb).frame_of_uses hu
    refine ⟨⟨fun mark hcall => absurd hcall Line.not_callsOn_fetch, fun mark => ?_⟩,
      ⟨fun mark hcall => absurd hcall Line.not_callsOn_lookup, fun mark => ?_⟩⟩
    · have hnot : ¬ (Line.fetch gap block.frame).Binds (markHandle mark) := Line.not_binds_fetch _
      simp [hnot, Line.IsLookup, Line.text_fetch]
    · rw [Line.binds_lookup_iff hmain.2]
      simp [Line.isLookup_lookup]

end Retrace
