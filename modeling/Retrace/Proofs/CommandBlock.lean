import Retrace.Proofs.CommandText
import Retrace.Proofs.Translation

/-! Blocks of commands that declare nothing, which are all blocks of a translation: every line carries
the mark of its block, and the registry knows every frame that a line addresses. -/
namespace Retrace

/-- A line that gives a frame its name, whatever its tag and its mark. -/
def Line.Finds (frame : FrameId) (line : Line) : Prop :=
  ∃ gap url handle, line.text = (Command.findFrame frame url).text gap handle

namespace Block

/-- A block of commands that declare nothing, as a translation makes them. -/
def OfCommands (gap : String) (block : Block) : Prop :=
  ∃ commands : List Command, (∀ c ∈ commands, c.tag ≠ .declaration) ∧
    block.lines = commands.map fun c => stamp block.frame c.tag (c.text gap (handleOf block.frame))

def Uses (frame : FrameId) (block : Block) : Prop := ∃ line ∈ block.lines, line.frame = some frame

lemma OfCommands.line {gap : String} {block : Block} (h : block.OfCommands gap) {line : Line}
    (hl : line ∈ block.lines) : line.frame = stampOf block.frame ∧
      line.tag ≠ some .declaration ∧ ∀ frame, ¬ line.Finds frame := by
  obtain ⟨commands, hc, he⟩ := h
  rw [he] at hl
  obtain ⟨c, hm, rfl⟩ := List.mem_map.mp hl
  refine ⟨rfl, ?_, ?_⟩
  · simpa [stamp] using hc c hm
  · rintro frame ⟨gap', url, handle, ht⟩
    exact Command.text_ne_findFrame (hc c hm) gap gap' handle _ frame url ht

lemma stampOf_eq_some {frame other : FrameId} :
    stampOf frame = some other ↔ frame = other ∧ other ≠ mainFrame := by
  unfold stampOf
  split_ifs with h
  · simp only [false_iff, not_and, not_not]
    rintro rfl
    exact h
  · simp only [Option.some.injEq]
    exact ⟨fun he => ⟨he, he ▸ h⟩, fun he => he.1⟩

lemma OfCommands.frame_of_uses {gap : String} {block : Block} (h : block.OfCommands gap)
    {frame : FrameId} (hu : block.Uses frame) : block.frame = frame ∧ frame ≠ mainFrame := by
  obtain ⟨line, hl, hf⟩ := hu
  rw [(h.line hl).1] at hf
  exact stampOf_eq_some.mp hf

lemma ofCommands_empty (gap : String) (frame : FrameId) : (empty frame).OfCommands gap :=
  ⟨[], by simp, rfl⟩

lemma ofCommands_block {gap : String} {frame : FrameId} {command : Command}
    (h : command.tag ≠ .declaration) : (command.block gap frame (handleOf frame)).OfCommands gap :=
  ⟨[command], by simpa using h, rfl⟩

end Block

/-- What one action can put into the body: a command with the texts of the action. -/
inductive Action.Issues : Action → Command → Prop
  | click (selector : Option String) : Issues (.click selector) (.click selector)
  | select (selector value tagName targetType : Option String) :
    Issues (.change selector value tagName targetType) (.select selector value)
  | check (selector value tagName targetType : Option String) :
    Issues (.change selector value tagName targetType) (.check selector value)
  | type (selector value tagName targetType : Option String) :
    Issues (.change selector value tagName targetType) (.type selector value)
  | visit (href : Option String) : Issues (.visit href) (.visit href)
  | viewport (size : Option ViewportSize) :
    Issues (.viewport size) (.viewport (size.bind (·.width)) (size.bind (·.height)))
  | navigation (href : Option String) : Issues (.navigation href) (.visit href)
  | storage {entries : Option (List StorageEntry)} {entry : StorageEntry}
    (h : entry ∈ entries.getD []) : Issues (.storage entries) (.setItem entry.name entry.value)

lemma Action.issues_of_mem_bodyCommands {action : Action} {command : Command}
    (h : command ∈ action.bodyCommands) : action.Issues command := by
  cases action with
  | click selector =>
    obtain rfl := List.mem_singleton.mp h
    exact .click selector
  | change selector value tagName targetType =>
    simp only [bodyCommands] at h
    split at h
    · obtain rfl := List.mem_singleton.mp h
      exact .select ..
    · obtain rfl := List.mem_singleton.mp h
      exact .check ..
    · obtain rfl := List.mem_singleton.mp h
      exact .type ..
    · cases h
  | visit href =>
    obtain rfl := List.mem_singleton.mp h
    exact .visit href
  | viewport size =>
    obtain rfl := List.mem_singleton.mp h
    exact .viewport size
  | navigation href =>
    obtain rfl := List.mem_singleton.mp h
    exact .navigation href
  | storage entries =>
    obtain ⟨entry, he, rfl⟩ := List.mem_map.mp h
    exact .storage he
  | keydown | cookie | unknown => cases h

lemma Action.tag_of_mem_bodyCommands {action : Action} {command : Command}
    (h : command ∈ action.bodyCommands) : command.tag ≠ .declaration := by
  cases issues_of_mem_bodyCommands h <;> simp [Command.tag]

lemma Action.mem_bodyBlocks {gap : String} {frame : FrameId} {action : Action} {block : Block}
    (h : block ∈ action.bodyBlocks gap frame (handleOf frame)) : block.frame = frame ∧ block.OfCommands gap := by
  rcases List.mem_append.mp h with h | h
  · split_ifs at h
    · rw [List.mem_singleton.mp h]
      exact ⟨rfl, Block.ofCommands_empty gap frame⟩
    · exact absurd h List.not_mem_nil
  · obtain ⟨command, hc, rfl⟩ := List.mem_map.mp h
    exact ⟨rfl, Block.ofCommands_block (Action.tag_of_mem_bodyCommands hc)⟩

theorem ofCommands_translate {gap : String} {events : List Event} {block : Block}
    (h : block ∈ (translate gap events).blocks) : block.OfCommands gap := by
  rw [translate_eq] at h
  obtain ⟨event, -, he⟩ := List.mem_flatMap.mp h
  exact (Action.mem_bodyBlocks he).2

/-- A frame that a line of the body addresses is known to the registry of the translation. -/
theorem contains_frames_of_uses {gap : String} {events : List Event} {block : Block}
    {frame : FrameId} (h : block ∈ (translate gap events).blocks) (hu : block.Uses frame) :
    (translate gap events).frames.contains frame := by
  obtain ⟨hf, hm⟩ := (ofCommands_translate h).frame_of_uses hu
  rw [translate_eq] at h
  obtain ⟨event, he, hb⟩ := List.mem_flatMap.mp h
  rw [contains_frames_translate]
  exact ⟨hm, event, he, (Action.mem_bodyBlocks hb).1 ▸ hf⟩

end Retrace
