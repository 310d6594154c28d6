import Mathlib.Data.List.Basic
import Retrace.Generator
import Retrace.Proofs.FrameDeclaration

/-! A recording without errors gives a test without gaps. The checks of an event and its commands are
two readings of the same action: where the first finds nothing, the second lacks nothing. -/
namespace Retrace

@[simp] lemma require_eq_nil {path : String} {present : Bool} :
    require path present = [] ↔ present = true := by
  cases present <;> simp [require]

lemma entryErrors_eq_nil {α : Type} {list : String} {name value : α → Option String}
    {entries : List α} (h : entryErrors list name value entries = []) :
    ∀ entry ∈ entries, (name entry).isSome ∧ (value entry).isSome := by
  intro entry hm
  obtain ⟨i, hi, rfl⟩ := List.getElem_of_mem hm
  have hnil := List.flatten_eq_nil_iff.mp h _ (List.mem_mapIdx.mpr ⟨i, hi, rfl⟩)
  simpa using hnil

theorem Action.isComplete_of_errors {action : Action} (h : action.errors = []) :
    ∀ c ∈ action.bodyCommands ++ action.setupCommands, c.isComplete := by
  cases action with
  | change selector value tagName targetType =>
    have hs : selector.isSome ∧ value.isSome := by
      simp only [errors, List.append_eq_nil_iff, require_eq_nil] at h
      exact h.1
    intro command hc
    simp only [bodyCommands, setupCommands, List.append_nil] at hc
    split at hc <;> simp at hc <;> subst hc <;> simpa [Command.isComplete] using hs
  | viewport size =>
    cases size with
    | none => simp [errors] at h
    | some size =>
      simpa [errors, bodyCommands, setupCommands, Command.isComplete] using h
  | cookie cookies =>
    cases cookies with
    | none => simp [errors] at h
    | some cookies =>
      simpa [bodyCommands, setupCommands, Command.isComplete] using entryErrors_eq_nil h
  | storage entries =>
    cases entries with
    | none => simp [errors] at h
    | some entries =>
      simpa [bodyCommands, setupCommands, Command.isComplete] using entryErrors_eq_nil h
  | keydown selector value keyCode => simp [bodyCommands, setupCommands]
  | unknown => simp [bodyCommands, setupCommands]
  | _ => simpa [errors, bodyCommands, setupCommands, Command.isComplete] using h

/-- A complete command has the same text whatever stands for a missing field. -/
theorem Command.text_eq_of_isComplete {command : Command} (h : command.isComplete)
    (gap gap' handle : String) : command.text gap handle = command.text gap' handle := by
  have hl {field : Option String} (hf : field.isSome) : literal gap field = literal gap' field := by
    obtain ⟨text, rfl⟩ := Option.isSome_iff_exists.mp hf
    rfl
  have hn {field : Option Binary64} (hf : field.isSome) : numeral gap field = numeral gap' field := by
    obtain ⟨x, rfl⟩ := Option.isSome_iff_exists.mp hf
    rfl
  unfold isComplete at h
  unfold text
  cases command with
  | click selector => simp only [onElement, hl h]
  | select selector value | check selector value | type selector value =>
    obtain ⟨hs, hv⟩ := Bool.and_eq_true_iff.mp h
    simp only [onElement, hl hs, hl hv]
  | visit href => simp only [hl h]
  | viewport width height =>
    obtain ⟨hw, hh⟩ := Bool.and_eq_true_iff.mp h
    simp only [hn hw, hn hh]
  | setCookie name value _ | setItem name value =>
    obtain ⟨hs, hv⟩ := Bool.and_eq_true_iff.mp h
    simp only [hl hs, hl hv]
  | findFrame frame url => simp only [hl h]
  | clearCookies | declareFrames => rfl

lemma Command.block_eq_of_isComplete {command : Command} (h : command.isComplete)
    (gap gap' : String) (frame : FrameId) (handle : String) :
    command.block gap frame handle = command.block gap' frame handle := by
  simp only [block, text_eq_of_isComplete h gap gap']

namespace Action
variable {action : Action} (h : action.errors = []) (gap gap' : String) (frame : FrameId)
  (handle : String)
include h

lemma bodyBlocks_eq_of_errors :
    action.bodyBlocks gap frame handle = action.bodyBlocks gap' frame handle := by
  unfold bodyBlocks
  congr 1
  refine List.map_congr_left fun command hc => Command.block_eq_of_isComplete ?_ gap gap' frame handle
  exact isComplete_of_errors h command (List.mem_append_left _ hc)

lemma setupBlocks_eq_of_errors :
    action.setupBlocks gap frame handle = action.setupBlocks gap' frame handle := by
  refine List.map_congr_left fun command hc => Command.block_eq_of_isComplete ?_ gap gap' frame handle
  exact isComplete_of_errors h command (List.mem_append_right _ hc)

end Action

/-! ### Frames -/

/-- A registry that has a URL for each of its frames. -/
def Registry.HasUrls (registry : Registry) : Prop := ∀ entry ∈ registry.entries, entry.2.isSome

namespace Registry

lemma HasUrls.slot {registry : Registry} (h : registry.HasUrls) {frame : FrameId}
    {slot : Option String} (hs : registry.slot? frame = some slot) : ∃ url, slot = some url := by
  obtain ⟨before, after, he, -⟩ := List.lookup_eq_some_iff.mp hs
  exact Option.isSome_iff_exists.mp (h (frame, slot) (by simp [he]))

lemma HasUrls.erase {registry : Registry} (h : registry.HasUrls) (frame : FrameId) :
    (registry.erase frame).HasUrls :=
  fun entry hm => h entry (List.mem_filter.mp hm).1

lemma HasUrls.visit {registry : Registry} (h : registry.HasUrls) {event : Event}
    (he : event.frameErrors = []) : (registry.visit event).HasUrls := by
  unfold Registry.visit
  split_ifs with hmain
  · exact h
  · intro entry hm
    rcases mem_insert hm with rfl | hm
    · simpa [Event.frameErrors, hmain, Option.isSome_iff_ne_none] using he
    · exact h entry hm

lemma HasUrls.foldl_visit {registry : Registry} (h : registry.HasUrls) {events : List Event}
    (he : ∀ event ∈ events, event.frameErrors = []) :
    (events.foldl Registry.visit registry).HasUrls := by
  induction events generalizing registry with
  | nil => exact h
  | cons event rest ih =>
    obtain ⟨hevent, hrest⟩ := List.forall_mem_cons.mp he
    exact ih (h.visit hevent) hrest

end Registry

theorem declareUsedFrames_eq_of_hasUrls {registry : Registry} (h : registry.HasUrls)
    (gap gap' : String) (blocks : List Block) :
    declareUsedFrames gap blocks registry = declareUsedFrames gap' blocks registry := by
  induction blocks generalizing registry with
  | nil => rfl
  | cons block rest ih =>
    simp only [declareUsedFrames]
    cases hp : block.pendingFrame? registry with
    | none => simp only [ih h]
    | some frame =>
      obtain ⟨slot, hs⟩ := Registry.contains_iff.mp (List.find?_some hp)
      obtain ⟨url, rfl⟩ := h.slot hs
      have hlines : Block.declarationLines gap frame (some url) =
          Block.declarationLines gap' frame (some url) := by
        apply List.map_congr_left
        intro command hc
        have hcomplete : command.isComplete := by
          rcases List.mem_cons.mp hc with rfl | hc
          · rfl
          · rw [List.mem_singleton.mp hc]
            rfl
        rw [Command.text_eq_of_isComplete hcomplete gap gap']
      simp [Registry.take, hs, hlines, ih (h.erase frame)]

/-! ### Checked tests -/

lemma Generator.firstError?_eq_none {events : List Event} (h : firstError? events = none) :
    ∀ event ∈ events, event.findings.errors = [] := by
  intro event hm
  obtain ⟨i, hi, rfl⟩ := List.getElem_of_mem hm
  have hn := List.findSome?_eq_none_iff.mp h _ (List.mem_mapIdx.mpr ⟨i, hi, rfl⟩)
  simpa using hn

lemma Generator.firstError?_eq_none_iff {events : List Event} :
    firstError? events = none ↔ ∀ event ∈ events, event.findings.errors = [] := by
  refine ⟨firstError?_eq_none, fun h => ?_⟩
  apply List.findSome?_eq_none_iff.mpr
  intro found hm
  obtain ⟨i, hi, rfl⟩ := List.mem_mapIdx.mp hm
  simp [h _ (List.getElem_mem hi)]

theorem Generator.checkedTest_eq_ok {generator : Generator} {events : List Event} {code : String} :
    generator.checkedTest events = .ok code ↔
      generator.options.check = .ok () ∧ (∀ event ∈ events, event.findings.errors = []) ∧
        generator.test events = code := by
  rw [← firstError?_eq_none_iff]
  unfold checkedTest
  cases generator.options.check with
  | error e => simp [Except.mapError, bind, Except.bind]
  | ok =>
    cases hf : firstError? events with
    | some found => simp [Except.mapError, bind, Except.bind, throw, throwThe, MonadExceptOf.throw]
    | none => simp [Except.mapError, bind, Except.bind, pure, Except.pure]

lemma hasUrls_frames {events : List Event} (h : ∀ event ∈ events, event.findings.errors = [])
    (gap : String) : (translate gap events).frames.HasUrls := by
  rw [translate_eq]
  apply Registry.HasUrls.foldl_visit (by simp [Registry.HasUrls, Registry.empty])
  intro event he
  exact (List.append_eq_nil_iff.mp (h event he)).1

lemma translate_eq_of_errors {events : List Event}
    (h : ∀ event ∈ events, event.findings.errors = []) (gap gap' : String) :
    translate gap events = translate gap' events := by
  have haction (event : Event) (he : event ∈ events) : event.action.errors = [] :=
    (List.append_eq_nil_iff.mp (h event he)).2
  simp only [translate_eq, Translation.mk.injEq, and_true]
  exact ⟨List.flatMap_congr fun e he => Action.bodyBlocks_eq_of_errors (haction e he) gap gap' e.frame _,
    List.flatMap_congr fun e he => Action.setupBlocks_eq_of_errors (haction e he) gap gap' e.frame _⟩

lemma lookup_has_url {gap : String} {blocks : List Block} (hc : ∀ b ∈ blocks, b.OfCommands gap)
    {frames : Registry} (hu : frames.HasUrls) : ∀ b ∈ (declareUsedFrames gap blocks frames).1,
      ∀ line ∈ b.lines, line.tag = some .declaration → ∃ frame, line = .fetch gap frame ∨
        ∃ url, frames.slot? frame = some (some url) ∧ line = .lookup gap frame (some url) := by
  intro block hb
  rcases mem_declareUsedFrames hc hb with hb | ⟨b, hm, slot, -, hs, rfl⟩
  · exact fun line hl ht => absurd ht ((hc block hb).line hl).2.1
  · obtain ⟨url, rfl⟩ := hu.slot hs
    refine Block.forall_lines_declared.mpr
      ⟨fun _ => ⟨_, .inl rfl⟩, fun _ => ⟨_, .inr ⟨url, hs, rfl⟩⟩, ?_⟩
    exact fun line hl ht => absurd ht ((hc b hm).line hl).2.1

/-- No word for a missing field shows in a checked test: commands are complete and frames have URLs. -/
theorem checkedTest_without_gaps {generator : Generator} {events : List Event} {code : String}
    (h : generator.checkedTest events = .ok code) :
    let translation := translate generator.gap events
    let lines := (generator.options.arrange generator.gap translation.blocks
      translation.frames).flatMap Block.lines
    (∀ event ∈ events, ∀ command ∈ event.action.bodyCommands ++ event.action.setupCommands,
      command.isComplete) ∧
    (∀ line ∈ lines, line.tag = some .declaration → ∃ frame, line = .fetch generator.gap frame ∨
      ∃ url, translation.frames.slot? frame = some (some url) ∧
        line = .lookup generator.gap frame (some url)) ∧
    ∀ gap, ({ generator with gap } : Generator).checkedTest events = .ok code := by
  intro translation lines
  obtain ⟨ho, he, rfl⟩ := Generator.checkedTest_eq_ok.mp h
  have hurls : translation.frames.HasUrls := hasUrls_frames he generator.gap
  have hc : ∀ b ∈ translation.blocks, b.OfCommands generator.gap := fun _ => ofCommands_translate
  refine ⟨fun event hm => ?_, ?_, fun gap => ?_⟩
  · exact Action.isComplete_of_errors (List.append_eq_nil_iff.mp (he event hm)).2
  · exact Options.forall_lines_arrange (by simp [Block.separator, Line.blank])
      (fun b hb line hl ht => absurd ht ((hc b hb).line hl).2.1) (lookup_has_url hc hurls)
  · refine Generator.checkedTest_eq_ok.mpr ⟨ho, he, ?_⟩
    simp only [Generator.test, Options.arrange, translate_eq_of_errors he gap generator.gap]
    rw [declareUsedFrames_eq_of_hasUrls hurls gap generator.gap]

/-- The frame of the click has its URL from the key before it; the cookie has the name `undefined`. -/
theorem checkedTest_of_frame_and_cookie :
    let events : List Event :=
      [⟨.keydown none none none, some 7, some "/a"⟩, ⟨.click (some "#b"), some 7, some "/c"⟩,
        ⟨.cookie (some [⟨some "undefined", some "1", []⟩]), none, none⟩]
    let generator : Generator := { options := {} }
    generator.checkedTest events = .ok (generator.test events) ∧
    ({ generator with gap := "null" } : Generator).checkedTest events = .ok (generator.test events) := by
  intro events generator
  have h : generator.checkedTest events = .ok (generator.test events) := by
    refine Generator.checkedTest_eq_ok.mpr ⟨by decide, ?_, rfl⟩
    simp [events, Event.findings, Event.frameErrors, Event.frame, Action.errors, require, entryErrors]
  exact ⟨h, (checkedTest_without_gaps h).2.2 "null"⟩

end Retrace
