import Retrace.Proofs.Script.HandleScope

/-! The mark, the handle and the text of a line speak of one frame, though the tracker keeps frame and handle
apart and a declaration builds the name once more. -/
namespace Retrace

section Translations
variable {gap : String}

lemma mem_lines_of_event {event : Event} {line : Line}
    (h : line ∈ ((translate gap [event]).blocks ++ (translate gap [event]).setup).flatMap Block.lines) :
    ∃ command : Command, command.tag ≠ .declaration ∧ line = command.line gap event.frame := by
  rw [List.flatMap_append, bodyLines_translate, setupLines_translate, List.flatMap_singleton,
    List.flatMap_singleton, List.mem_append] at h
  rcases h with h | h
  · obtain ⟨command, hc, rfl⟩ := List.mem_map.mp h
    exact ⟨command, Action.tag_of_mem_bodyCommands hc, rfl⟩
  · obtain ⟨command, hc, rfl⟩ := List.mem_map.mp h
    exact ⟨command, by simp [(Action.tag_of_mem_setupCommands hc).1], rfl⟩

lemma Event.frame_eq_mainFrame {event : Event} :
    event.frame = mainFrame ↔ event.frameId = none ∨ event.frameId = some 0 := by
  cases h : event.frameId <;> simp [frame, mainFrame, h]

lemma Event.stampOf_frame_eq_some {event : Event} {id : FrameId} :
    Block.stampOf event.frame = some id ↔ event.frameId = some id ∧ id ≠ 0 := by
  rw [Block.stampOf_eq_some]
  cases h : event.frameId with
  | none =>
    simp only [frame, h, Option.getD_none, reduceCtorEq, false_and, iff_false, not_and, not_not]
    exact Eq.symm
  | some other => simp [frame, mainFrame, h]

end Translations

/-- Mark, handle and text of a line are those of one frame; where frames are declared, a line before it binds
its handle. -/
theorem lines_keep_to_their_frame (gap : String) (events : List Event) :
    let translation := translate gap events
    translation.blocks = events.flatMap (fun event => (translate gap [event]).blocks) ∧
    translation.setup = events.flatMap (fun event => (translate gap [event]).setup) ∧
    (∀ event, ∀ line ∈
        ((translate gap [event]).blocks ++ (translate gap [event]).setup).flatMap Block.lines,
      (line.frame = none ↔ event.frameId = none ∨ event.frameId = some 0) ∧
      (∀ frame, line.frame = some frame ↔ event.frameId = some frame ∧ frame ≠ 0) ∧
      ∀ mark, line.CallsOn (markHandle mark) ↔ line.tag ≠ some .storage ∧ mark = line.frame) ∧
    ∀ options : Options,
      let lines := (options.arrange gap translation.blocks translation.frames).flatMap Block.lines
      (∀ line ∈ lines, ∀ mark,
        line.Binds (markHandle mark) ↔ line.IsLookup ∧ mark = line.frame) ∧
      (∀ line ∈ lines, ∀ other ∈ lines, ∀ mark, line.CallsOn (markHandle mark) →
        other.Binds (markHandle mark) → other.frame = line.frame) ∧
      (options.declareFrames → ∀ before line after frame, lines = before ++ line :: after →
        line.frame = some frame → line.tag ≠ some .declaration →
        ∃ earlier ∈ before, earlier.Binds (markHandle (some frame)) ∧ earlier.frame = some frame) := by
  intro translation
  refine ⟨by simp [translation, translate_eq], by simp [translation, translate_eq], ?_, ?_⟩
  · intro event line hl
    obtain ⟨command, htag, rfl⟩ := mem_lines_of_event hl
    refine ⟨?_, fun frame => Event.stampOf_frame_eq_some, fun mark => ?_⟩
    · rw [← Event.frame_eq_mainFrame]
      change Block.stampOf event.frame = none ↔ _
      simp [Block.stampOf]
    · rw [Command.line_callsOn_iff htag]
      simp [Command.line, Block.stamp]
  · intro options lines
    have hmarks := marks_arrange gap events options
    refine ⟨fun line hl => (hmarks line hl).2, ?_, ?_⟩
    · intro line hl other ho mark hcall hbinds
      have hline := ((hmarks line hl).1 mark hcall).2
      have hother := (((hmarks other ho).2 mark).mp hbinds).2
      exact hother.symm.trans hline
    · intro h before line after frame he hf ht
      obtain ⟨earlier, hm, hfinds⟩ := exists_finds_before gap h events he hf ht
      have hbinds := hfinds.binds
      have hl : earlier ∈ lines := by
        rw [he]
        exact List.mem_append_left _ hm
      exact ⟨earlier, hm, hbinds, ((((hmarks earlier hl).2 _).mp hbinds).2).symm⟩

/-- Frames 1 and 12, the name of the one a part of the name of the other. -/
theorem lines_keep_to_frames_one_and_twelve :
    let events : List Event := [⟨.click (some "#a"), some 12, some "/a"⟩,
      ⟨.storage (some [⟨some "k", some "v"⟩]), some 1, some "/b"⟩, ⟨.click none, some 1, none⟩,
      ⟨.cookie none, some 12, none⟩, ⟨.visit none, some 0, none⟩]
    let translation := translate "undefined" events
    let lines := (Options.arrange "undefined" {} translation.blocks translation.frames).flatMap Block.lines
    let line : Line := ⟨some .click, "frame_1.get('undefined').click()", some 1⟩
    ({} : Options).declareFrames ∧
    (∀ mark, line.CallsOn (markHandle mark) ↔ line.tag ≠ some .storage ∧ mark = some 1) ∧
    (∃ before after, lines = before ++ line :: after ∧
      ∃ earlier ∈ before, earlier.Binds (markHandle (some 1)) ∧ earlier.frame = some 1) ∧
    ∃ other ∈ lines, other.Binds (markHandle (some 12)) ∧ other.frame = some 12 := by
  intro events translation lines line
  obtain ⟨-, -, hevent, hbody⟩ := lines_keep_to_their_frame "undefined" events
  obtain ⟨hbinds, -, hbehind⟩ := hbody {}
  refine ⟨rfl, ?_, ?_, ?_⟩
  · exact (hevent ⟨.click none, some 1, none⟩ line (by decide +kernel)).2.2
  · refine ⟨lines.take 6, lines.drop 7, by decide +kernel, ?_⟩
    exact hbehind rfl (lines.take 6) line (lines.drop 7) 1 (by decide +kernel) rfl (by decide)
  · refine ⟨.lookup "undefined" 12 (some "/a"), by decide +kernel, ?_, rfl⟩
    exact (hbinds _ (by decide +kernel) _).mpr ⟨by decide +kernel, rfl⟩

end Retrace
