import Retrace.Proofs.Script.Handle

/-! Handles in scope. A line that addresses a sub-frame uses a name that a line before it, in the same
function, has to bind. The setup is a function that binds none. -/
namespace Retrace

/-- A line that is a call on the name of a sub-frame. -/
def Line.Addresses (frame : FrameId) (line : Line) : Prop :=
  (frameName frame ++ ".").toList <+: line.text.toList

/-- Every sub-frame is found before it is addressed. -/
def HandlesBound (lines : List Line) : Prop :=
  ∀ before line after frame, lines = before ++ line :: after → line.Addresses frame →
    ∃ earlier ∈ before, earlier.Finds frame

lemma Line.addresses_iff {frame : FrameId} {line : Line} :
    line.Addresses frame ↔ line.CallsOn (markHandle (some frame)) := Iff.rfl

lemma Command.eq_of_addresses {gap : String} {frame other : FrameId} {command : Command}
    (h : command.tag ≠ .declaration) (ha : (command.line gap other).Addresses frame) :
    other = frame ∧ other ≠ mainFrame := by
  have hmark := ((command.line_callsOn_iff h).mp (Line.addresses_iff.mp ha)).2
  obtain ⟨rfl, hmain⟩ := Block.stampOf_eq_some.mp hmark.symm
  exact ⟨rfl, hmain⟩

/-! ### The body -/

lemma frame_of_addresses (gap : String) (options : Options) (events : List Event) :
    let translation := translate gap events
    ∀ line ∈ (options.arrange gap translation.blocks translation.frames).flatMap Block.lines,
      ∀ frame, line.Addresses frame → line.frame = some frame ∧ line.tag ≠ some .declaration := by
  intro translation line hl frame ha
  obtain ⟨htag, hmark⟩ := (marks_arrange gap events options line hl).1 _ (Line.addresses_iff.mp ha)
  exact ⟨hmark.symm, htag⟩

lemma DeclaredOnce.exists_finds {gap : String} {frame : FrameId} {url : Option String}
    {lines : List Line} (h : DeclaredOnce gap frame url lines) {before after : List Line} {line : Line}
    (he : lines = before ++ line :: after) (hf : line.frame = some frame)
    (ht : line.tag ≠ some .declaration) : ∃ earlier ∈ before, earlier.Finds frame := by
  obtain ⟨first, next, last, hlines, -, -, hfirst, -, -⟩ := h
  have hfinds : (Line.lookup gap frame url).Finds frame := ⟨gap, url, handleOf frame, rfl⟩
  have hsplit : (first ++ [.fetch gap frame, .lookup gap frame url]) ++ next :: last =
      before ++ line :: after := by
    rw [← he, hlines, List.append_assoc]
    rfl
  rcases List.append_eq_append_iff.mp hsplit with ⟨more, rfl, -⟩ | ⟨more, hdeclared, hrest⟩
  · exact ⟨_, by simp, hfinds⟩
  · cases more with
    | nil =>
      rw [List.append_nil] at hdeclared
      exact ⟨_, by simp [← hdeclared], hfinds⟩
    | cons other more =>
      obtain rfl : line = other := (List.cons.inj hrest).1
      -- The line would stand before the declaration, or be a part of it.
      have hm : line ∈ first ++ [.fetch gap frame, .lookup gap frame url] := by simp [hdeclared]
      rcases List.mem_append.mp hm with hm | hm
      · exact absurd hf (hfirst line hm)
      · rcases List.mem_cons.mp hm with rfl | hm
        · exact absurd rfl ht
        · rw [List.mem_singleton.mp hm] at ht
          exact absurd rfl ht

lemma exists_finds_before (gap : String) {options : Options} (h : options.declareFrames)
    (events : List Event) {before after : List Line} {line : Line} {frame : FrameId}
    (he : (options.arrange gap (translate gap events).blocks (translate gap events).frames).flatMap
      Block.lines = before ++ line :: after)
    (hf : line.frame = some frame) (ht : line.tag ≠ some .declaration) :
    ∃ earlier ∈ before, earlier.Finds frame := by
  have hc : ∀ b ∈ (translate gap events).blocks, b.OfCommands gap := fun _ => ofCommands_translate
  have hl : line ∈ before ++ line :: after := List.mem_append_right before List.mem_cons_self
  rw [← he] at hl
  have hu : ∃ b ∈ (translate gap events).blocks, b.Uses frame := by
    by_contra hnone
    have hu : ∀ b ∈ (translate gap events).blocks, ¬ b.Uses frame :=
      fun b hb hub => hnone ⟨b, hb, hub⟩
    exact (avoids_arrange options hc (translate gap events).frames hu line hl).1 hf
  obtain ⟨block, hb, hub⟩ := hu
  obtain ⟨slot, hs⟩ := Registry.contains_iff.mp (contains_frames_of_uses hb hub)
  exact (declaredOnce_arrange h hc hs ⟨block, hb, hub⟩).exists_finds he hf ht

lemma handlesBound_body (gap : String) {options : Options} (h : options.declareFrames)
    (events : List Event) :
    let translation := translate gap events
    HandlesBound ((options.arrange gap translation.blocks translation.frames).flatMap Block.lines) := by
  intro translation before line after frame he ha
  have hl : line ∈ (options.arrange gap translation.blocks translation.frames).flatMap Block.lines := by
    rw [he]
    exact List.mem_append_right before List.mem_cons_self
  obtain ⟨hf, ht⟩ := frame_of_addresses gap options events line hl frame ha
  exact exists_finds_before gap h events he hf ht

/-! ### The setup -/

lemma Action.tag_of_mem_setupCommands {action : Action} {command : Command}
    (h : command ∈ action.setupCommands) : command.tag = .cookie ∧ action.kind = .cookie := by
  cases action with
  | cookie cookies =>
    refine ⟨?_, rfl⟩
    rcases List.mem_cons.mp h with rfl | h
    · rfl
    · obtain ⟨cookie, -, rfl⟩ := List.mem_map.mp h
      rfl
  | _ => exact absurd h List.not_mem_nil

lemma mem_setupLines {gap : String} {events : List Event} {line : Line}
    (h : line ∈ (translate gap events).setup.flatMap Block.lines) : ∃ event ∈ events,
      event.action.kind = .cookie ∧
      ∃ command, command.tag = .cookie ∧ line = Command.line gap event.frame command := by
  rw [setupLines_translate] at h
  obtain ⟨event, he, hm⟩ := List.mem_flatMap.mp h
  obtain ⟨command, hc, rfl⟩ := List.mem_map.mp hm
  obtain ⟨htag, hkind⟩ := Action.tag_of_mem_setupCommands hc
  exact ⟨event, he, hkind, command, htag, rfl⟩

lemma clearCookies_mem_setupLines (gap : String) {events : List Event} {event : Event}
    (h : event ∈ events) (hk : event.action.kind = .cookie) :
    Command.clearCookies.line gap event.frame ∈
      (translate gap events).setup.flatMap Block.lines := by
  rw [setupLines_translate]
  refine List.mem_flatMap.mpr ⟨event, h, List.mem_map_of_mem ?_⟩
  cases ha : event.action with
  | cookie cookies => exact List.mem_cons_self
  | _ => simp [ha, Action.kind] at hk

lemma not_finds_of_mem_setupLines {gap : String} {events : List Event} {line : Line}
    (h : line ∈ (translate gap events).setup.flatMap Block.lines) (frame : FrameId) :
    ¬ line.Finds frame := by
  obtain ⟨event, -, -, command, htag, rfl⟩ := mem_setupLines h
  rintro ⟨gap', url, handle, he⟩
  exact Command.text_ne_findFrame (by simp [htag]) gap gap' handle event.frame frame url he

/-- With frames declared, the handles of the body are bound before their use, those of the setup only if no
cookies of a sub-frame were recorded. -/
theorem handles_bound_in_setup_iff (gap : String) (options : Options) (h : options.declareFrames)
    (events : List Event) :
    let translation := translate gap events
    let setup := translation.setup.flatMap Block.lines
    HandlesBound ((options.arrange gap translation.blocks translation.frames).flatMap Block.lines) ∧
    (∀ line ∈ setup, ∀ frame, ¬ line.Finds frame) ∧
    (HandlesBound setup ↔
      ∀ event ∈ events, event.action.kind = .cookie → event.frame = mainFrame) := by
  intro translation setup
  refine ⟨handlesBound_body gap h events, fun line hl => not_finds_of_mem_setupLines hl, ?_⟩
  constructor
  · intro hbound event he hk
    by_contra hmain
    obtain ⟨before, after, hsplit⟩ := List.append_of_mem (clearCookies_mem_setupLines gap he hk)
    have ha : (Command.clearCookies.line gap event.frame).Addresses event.frame := by
      refine ⟨"clearCookies()".toList, ?_⟩
      unfold Command.line Block.stamp Command.text
      simp [handleOf, hmain]
    obtain ⟨earlier, hm, hfinds⟩ := hbound before _ after event.frame hsplit ha
    have hsetup : earlier ∈ setup := by
      rw [show setup = _ from hsplit]
      exact List.mem_append_left _ hm
    exact not_finds_of_mem_setupLines hsetup event.frame hfinds
  · intro hmain before line after frame hsplit ha
    have hl : line ∈ setup := by
      rw [hsplit]
      exact List.mem_append_right before List.mem_cons_self
    obtain ⟨event, he, hk, command, htag, rfl⟩ := mem_setupLines hl
    exact absurd (hmain event he hk) (Command.eq_of_addresses (by simp [htag]) ha).2

/-- Cookies of the main page with a sub-frame in the body. -/
theorem handles_bound_beside_main_cookies :
    let events : List Event := [⟨.cookie (some [⟨some "a", some "1", []⟩]), none, some "/"⟩,
      ⟨.click (some "#b"), some 5, some "/b"⟩]
    let translation := translate "gap" events
    ({} : Options).declareFrames ∧
    HandlesBound ((Options.arrange "gap" {} translation.blocks translation.frames).flatMap Block.lines) ∧
    HandlesBound (translation.setup.flatMap Block.lines) := by
  intro events translation
  obtain ⟨hbody, -, hsetup⟩ := handles_bound_in_setup_iff "gap" {} rfl events
  refine ⟨rfl, hbody, hsetup.mpr ?_⟩
  intro event he hk
  rcases List.mem_cons.mp he with rfl | he
  · rfl
  · obtain rfl := List.mem_singleton.mp he
    cases hk

/-- Cookies of a sub-frame are cleared through a handle that nothing binds in the setup, though the frame has
a URL. -/
theorem handle_of_frame_cookies_unbound :
    let events : List Event := [⟨.cookie (some []), some 5, some "https://embed.test/"⟩]
    let setup := (translate "undefined" events).setup.flatMap Block.lines
    ({} : Options).declareFrames ∧ setup.map Line.text = ["frame_5.clearCookies()"] ∧
    ¬ HandlesBound setup := by
  intro events setup
  refine ⟨rfl, by decide, ?_⟩
  intro hbound
  obtain ⟨earlier, hm, -⟩ := hbound [] (Command.clearCookies.line "undefined" 5) [] 5 (by decide)
    ⟨"clearCookies()".toList, by decide⟩
  exact absurd hm List.not_mem_nil

end Retrace
