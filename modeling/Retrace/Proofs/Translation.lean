import Retrace.Proofs.Registry
import Retrace.Translation

/-! A translation in closed form: what the events contribute one by one, and the registry that they
leave. Nothing carries over from one event to the next but the registry. -/
namespace Retrace

/-- The registry after an event was seen: its frame is recorded unless it is the main page. -/
def Registry.visit (registry : Registry) (event : Event) : Registry :=
  if event.frame = mainFrame then registry else registry.record event.frame event.frameUrl

namespace Registry

@[simp] theorem contains_visit (registry : Registry) (event : Event) (frame : FrameId) :
    (registry.visit event).contains frame ↔
      (event.frame ≠ mainFrame ∧ frame = event.frame) ∨ registry.contains frame := by
  unfold visit
  split_ifs with h <;> simp [h]

lemma contains_foldl_visit (events : List Event) (registry : Registry) (frame : FrameId) :
    (events.foldl visit registry).contains frame ↔
      (frame ≠ mainFrame ∧ ∃ event ∈ events, event.frame = frame) ∨ registry.contains frame := by
  induction events generalizing registry with
  | nil => simp
  | cons event rest ih =>
    rw [List.foldl_cons, ih, contains_visit]
    constructor
    · rintro (⟨hf, e, he, rfl⟩ | ⟨hm, rfl⟩ | hc)
      · exact .inl ⟨hf, e, List.mem_cons_of_mem _ he, rfl⟩
      · exact .inl ⟨hm, event, List.mem_cons_self, rfl⟩
      · exact .inr hc
    · rintro (⟨hf, e, he, rfl⟩ | hc)
      · rcases List.mem_cons.mp he with rfl | he
        · exact .inr (.inl ⟨hf, rfl⟩)
        · exact .inl ⟨hf, e, he, rfl⟩
      · exact .inr (.inr hc)

end Registry

theorem Tracker.observe_event (tracker : Tracker) (event : Event) :
    tracker.observe event.frameId event.frameUrl =
      ⟨event.frame, handleOf event.frame, tracker.registry.visit event⟩ := by
  unfold observe Registry.visit Event.frame handleOf
  split_ifs with h <;> simp [h]

namespace Scan

theorem step_eq (gap : String) (scan : Scan) (event : Event) :
    scan.step gap event =
      ⟨⟨event.frame, handleOf event.frame, scan.tracker.registry.visit event⟩,
        scan.blocks ++ event.action.bodyBlocks gap event.frame (handleOf event.frame),
        scan.setup ++ event.action.setupBlocks gap event.frame (handleOf event.frame),
        scan.navigates || event.action.waits⟩ := by
  simp [step, Tracker.observe_event]

/-- What a run adds to any scan; only its tracker depends on the order of the events. -/
theorem run_eq (gap : String) (scan : Scan) (events : List Event) :
    (scan.run gap events).finish =
      ⟨scan.blocks ++ events.flatMap fun e => e.action.bodyBlocks gap e.frame (handleOf e.frame),
        scan.setup ++ events.flatMap fun e => e.action.setupBlocks gap e.frame (handleOf e.frame),
        events.foldl .visit scan.tracker.registry,
        scan.navigates || events.any fun e => e.action.waits⟩ := by
  induction events generalizing scan with
  | nil => simp [run, finish]
  | cons event rest ih =>
    change ((scan.step gap event).run gap rest).finish = _
    rw [ih, step_eq]
    simp [List.append_assoc, Bool.or_assoc]

end Scan

theorem translate_eq (gap : String) (events : List Event) :
    translate gap events =
      ⟨events.flatMap fun e => e.action.bodyBlocks gap e.frame (handleOf e.frame),
        events.flatMap fun e => e.action.setupBlocks gap e.frame (handleOf e.frame),
        events.foldl .visit .empty,
        events.any fun e => e.action.waits⟩ := by
  rw [translate, Scan.run_eq]
  simp [Scan.start, Tracker.start]

theorem contains_frames_translate (gap : String) (events : List Event) (frame : FrameId) :
    (translate gap events).frames.contains frame ↔
      frame ≠ mainFrame ∧ ∃ event ∈ events, event.frame = frame := by
  rw [translate_eq, Registry.contains_foldl_visit]
  simp [Registry.contains]

lemma setup_split (gap : String) {events : List Event} {i : Nat} {event : Event}
    (h : events[i]? = some event) :
    (translate gap events).setup = (translate gap (events.take i)).setup ++
      (event.action.setupBlocks gap event.frame (handleOf event.frame) ++
        (translate gap (events.drop (i + 1))).setup) := by
  obtain ⟨hi, rfl⟩ := List.getElem?_eq_some_iff.mp h
  conv_lhs => rw [← List.take_append_drop i events, List.drop_eq_getElem_cons hi]
  simp only [translate_eq, List.flatMap_append, List.flatMap_cons]

lemma setup_at (gap : String) {events : List Event} {i k : Nat} {event : Event} {command : Command}
    (h : events[i]? = some event) (hk : event.action.setupCommands[k]? = some command) :
    (translate gap events).setup[(translate gap (events.take i)).setup.length + k]? =
      some (command.block gap event.frame (handleOf event.frame)) := by
  have hblock : (event.action.setupBlocks gap event.frame (handleOf event.frame))[k]? =
      some (command.block gap event.frame (handleOf event.frame)) := by
    rw [Action.setupBlocks, List.getElem?_map, hk]
    rfl
  obtain ⟨hlt, -⟩ := List.getElem?_eq_some_iff.mp hblock
  rw [setup_split gap h, List.getElem?_append_right (Nat.le_add_right _ _), Nat.add_sub_cancel_left,
    List.getElem?_append_left hlt, hblock]

/-! ### Lines -/

def Command.line (gap : String) (frame : FrameId) (command : Command) : Line :=
  Block.stamp frame command.tag (command.text gap (handleOf frame))

lemma Command.lines_blocks (gap : String) (frame : FrameId) (commands : List Command) :
    (commands.map (block gap frame (handleOf frame))).flatMap Block.lines = commands.map (line gap frame) := by
  induction commands with
  | nil => rfl
  | cons command rest ih =>
    rw [List.map_cons, List.flatMap_cons, ih]
    rfl

lemma Action.lines_bodyBlocks (gap : String) (frame : FrameId) (action : Action) :
    (action.bodyBlocks gap frame (handleOf frame)).flatMap Block.lines =
      action.bodyCommands.map (Command.line gap frame) := by
  rw [bodyBlocks, List.flatMap_append, Command.lines_blocks]
  split_ifs <;> simp [Block.empty]

theorem bodyLines_translate (gap : String) (events : List Event) :
    (translate gap events).blocks.flatMap Block.lines =
      events.flatMap fun e => e.action.bodyCommands.map (Command.line gap e.frame) := by
  simp only [translate_eq, List.flatMap_assoc, Action.lines_bodyBlocks]

theorem setupLines_translate (gap : String) (events : List Event) :
    (translate gap events).setup.flatMap Block.lines =
      events.flatMap fun e => e.action.setupCommands.map (Command.line gap e.frame) := by
  simp only [translate_eq, List.flatMap_assoc, Action.setupBlocks, Command.lines_blocks]

end Retrace
