import Retrace.Proofs.Translation

/-! Recordings one after the other. What an event adds depends on this event alone; the registry is the one
thing that events share, and it keeps what it saw first. -/
namespace Retrace

namespace Registry

/-- The frames of two registries; a frame of the first keeps what was recorded for it there. -/
def union (registry other : Registry) : Registry :=
  other.entries.foldl (fun known entry => known.record entry.1 entry.2) registry

theorem Ascending.union {registry : Registry} (h : registry.Ascending) (other : Registry) :
    (registry.union other).Ascending := by
  obtain ⟨entries⟩ := other
  induction entries generalizing registry with
  | nil => exact h
  | cons entry rest ih => exact ih (h.record entry.1 entry.2)

theorem slot?_union {registry : Registry} (h : registry.Ascending) (other : Registry)
    (frame : FrameId) :
    (registry.union other).slot? frame = (registry.slot? frame).or (other.slot? frame) := by
  obtain ⟨entries⟩ := other
  induction entries generalizing registry with
  | nil => simp [union, slot?]
  | cons entry rest ih =>
    change ((registry.record entry.1 entry.2).union ⟨rest⟩).slot? frame = _
    rw [ih (h.record entry.1 entry.2), slot?_record h, slot?_cons, Option.or_assoc]
    congr 1
    split_ifs <;> simp

theorem Ascending.visit {registry : Registry} (h : registry.Ascending) (event : Event) :
    (registry.visit event).Ascending := by
  unfold Registry.visit
  split_ifs with hmain
  · exact h
  · exact h.record event.frame event.frameUrl

theorem Ascending.foldl_visit {registry : Registry} (h : registry.Ascending)
    (events : List Event) : (events.foldl Registry.visit registry).Ascending := by
  induction events generalizing registry with
  | nil => exact h
  | cons event rest ih => exact ih (h.visit event)

lemma slot?_visit {registry : Registry} (h : registry.Ascending) (event : Event)
    (frame : FrameId) : (registry.visit event).slot? frame =
      (registry.slot? frame).or ((empty.visit event).slot? frame) := by
  unfold visit
  split_ifs with hmain
  · simp
  · rw [slot?_record h, slot?_record ascending_empty, slot?_empty, Option.none_or]

lemma slot?_foldl_visit {registry : Registry} (h : registry.Ascending) (events : List Event)
    (frame : FrameId) : (events.foldl visit registry).slot? frame =
      (registry.slot? frame).or ((events.foldl visit empty).slot? frame) := by
  induction events generalizing registry with
  | nil => simp
  | cons event rest ih =>
    rw [List.foldl_cons, ih (h.visit event), slot?_visit h, List.foldl_cons,
      ih (ascending_empty.visit event), Option.or_assoc]

theorem foldl_visit_eq_union {registry : Registry} (h : registry.Ascending)
    (events : List Event) :
    events.foldl visit registry = registry.union (events.foldl visit empty) := by
  apply ext_slot? (h.foldl_visit events) (h.union _)
  intro frame
  rw [slot?_foldl_visit h, slot?_union h]

end Registry

def Translation.append (translation more : Translation) : Translation :=
  ⟨translation.blocks ++ more.blocks, translation.setup ++ more.setup,
    translation.frames.union more.frames, translation.navigates || more.navigates⟩

/-- From any scan, events add what they are translated to on their own. -/
theorem Scan.run_eq_append {scan : Scan} (h : scan.tracker.registry.Ascending) (gap : String)
    (events : List Event) :
    (scan.run gap events).finish = scan.finish.append (translate gap events) := by
  rw [run_eq, translate_eq, Registry.foldl_visit_eq_union h]
  rfl

lemma ascending_frames_translate (gap : String) (events : List Event) :
    (translate gap events).frames.Ascending := by
  rw [translate_eq]
  exact Registry.ascending_empty.foldl_visit events

lemma translate_append (gap : String) (events more : List Event) :
    translate gap (events ++ more) = (translate gap events).append (translate gap more) := by
  have h := ascending_frames_translate gap events
  have hrun : Scan.start.run gap (events ++ more) = (Scan.start.run gap events).run gap more :=
    List.foldl_append
  rw [translate, hrun]
  exact Scan.run_eq_append h gap more

lemma slot?_frames_append (gap : String) (events more : List Event) (frame : FrameId) :
    (translate gap (events ++ more)).frames.slot? frame =
      ((translate gap events).frames.slot? frame).or ((translate gap more).frames.slot? frame) := by
  rw [translate_append]
  exact Registry.slot?_union (ascending_frames_translate gap events) _ frame

/-- The registry has for a sub-frame what its first event says, be it that there is no URL. -/
theorem slot?_frames_translate (gap : String) (events : List Event) {frame : FrameId}
    (h : frame ≠ mainFrame) : (translate gap events).frames.slot? frame =
      (events.find? fun e => e.frame = frame).map Event.frameUrl := by
  rw [translate_eq]
  change (events.foldl Registry.visit .empty).slot? frame = _
  induction events with
  | nil => rfl
  | cons event rest ih =>
    rw [List.foldl_cons, Registry.slot?_foldl_visit (Registry.ascending_empty.visit event), ih,
      List.find?_cons, Registry.visit]
    by_cases hf : event.frame = frame
    · subst hf
      simp [h, Registry.slot?_record Registry.ascending_empty]
    · split_ifs with hmain
      · simp [hf]
      · simp [hf, Ne.symm hf, Registry.slot?_record Registry.ascending_empty]

/-- Translating has no memory but the registry: a recording adds its own blocks, and the frames that the one
before it did not know. -/
theorem translation_of_parts (gap : String) :
    (∀ first second : List Event,
      let one := translate gap first
      let two := translate gap second
      let both := translate gap (first ++ second)
      both.blocks = one.blocks ++ two.blocks ∧ both.setup = one.setup ++ two.setup ∧
      both.navigates = (one.navigates || two.navigates) ∧
      both.frames = one.frames.union two.frames ∧
      ∀ frame, both.frames.slot? frame =
        (one.frames.slot? frame).or (two.frames.slot? frame)) ∧
    (∀ events : List Event,
      (translate gap events).blocks = events.flatMap (fun e => (translate gap [e]).blocks) ∧
      (translate gap events).setup = events.flatMap fun e => (translate gap [e]).setup) ∧
    ∀ (scan : Scan) (event : Event),
      (scan.step gap event).blocks = scan.blocks ++ (translate gap [event]).blocks ∧
      (scan.step gap event).setup = scan.setup ++ (translate gap [event]).setup := by
  refine ⟨?_, ?_, ?_⟩
  · intro first second one two both
    have h : both = one.append two := translate_append gap first second
    rw [h]
    refine ⟨rfl, rfl, rfl, rfl, ?_⟩
    intro frame
    exact Registry.slot?_union (ascending_frames_translate gap first) two.frames frame
  · intro events
    simp only [translate_eq]
    simp
  · intro scan event
    rw [Scan.step_eq, translate_eq]
    simp

end Retrace
