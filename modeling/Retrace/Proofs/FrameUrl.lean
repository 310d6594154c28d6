import Retrace.Proofs.FrameDeclaration
import Retrace.Proofs.TranslationAppend

/-! The URL by which a test finds a frame. The registry asks the first event of a frame for it and no event
after that. -/
namespace Retrace

/-- The first URL that an event of a frame carries. -/
def firstUrl? (events : List Event) (frame : FrameId) : Option String :=
  events.findSome? fun event => if event.frame = frame then event.frameUrl else none

lemma firstUrl?_eq_none_iff {events : List Event} {frame : FrameId} :
    firstUrl? events frame = none ↔ ∀ event ∈ events, event.frame = frame → event.frameUrl = none := by
  rw [firstUrl?, List.findSome?_eq_none_iff]
  apply forall₂_congr
  intro event _
  split_ifs with hf <;> simp [hf]

lemma firstUrl?_of_first {events : List Event} {frame : FrameId} {first : Event} {url : String}
    (h : events.find? (fun event => event.frame = frame) = some first)
    (hu : first.frameUrl = some url) : firstUrl? events frame = some url := by
  obtain ⟨hf, before, after, rfl, hbefore⟩ := List.find?_eq_some_iff_append.mp h
  have hnone : firstUrl? before frame = none := by
    apply firstUrl?_eq_none_iff.mpr
    intro event he hframe
    have hother := hbefore event he
    simp [hframe] at hother
  have hfirst : first.frame = frame := of_decide_eq_true hf
  rw [firstUrl?] at hnone ⊢
  rw [List.findSome?_append, hnone, Option.none_or, List.findSome?_cons, if_pos hfirst, hu]

lemma url?_frames_eq_firstUrl?_iff (gap : String) (events : List Event) {frame : FrameId}
    (h : frame ≠ mainFrame) : (translate gap events).frames.url? frame = firstUrl? events frame ↔
      ∀ first, events.find? (fun event => event.frame = frame) = some first → first.frameUrl = none →
        ∀ event ∈ events, event.frame = frame → event.frameUrl = none := by
  rw [Registry.url?, slot?_frames_translate gap events h]
  cases hf : events.find? fun event => event.frame = frame with
  | none =>
    have hnone : firstUrl? events frame = none := by
      apply firstUrl?_eq_none_iff.mpr
      intro event he hframe
      exact absurd (decide_eq_true hframe) (List.find?_eq_none.mp hf event he)
    simp [hnone]
  | some first =>
    cases hu : first.frameUrl with
    | none =>
      rw [← firstUrl?_eq_none_iff]
      simp [hu, eq_comm]
    | some url => simp [firstUrl?_of_first hf hu, hu]

lemma eq_lookup_of_finds {gap : String} {blocks : List Block}
    (hc : ∀ b ∈ blocks, b.OfCommands gap) (options : Options) (frames : Registry) :
    ∀ line ∈ (options.arrange gap blocks frames).flatMap Block.lines,
      ∀ frame, line.Finds frame →
        ∃ slot, frames.slot? frame = some slot ∧ line = .lookup gap frame slot := by
  refine Options.forall_lines_arrange_of_commands hc ?_ ?_ ?_
  · intro frame hf
    exact absurd hf (avoids_separator frame .blank (List.mem_singleton_self _)).2
  · intro block hb line hl frame hf
    exact absurd hf (((hc block hb).line hl).2.2 frame)
  · intro block hb hu slot hs
    refine ⟨?_, ?_⟩
    · intro frame hf
      exact absurd hf (Line.not_finds_fetch gap block.frame frame)
    · intro frame hf
      obtain rfl : block.frame = frame := Line.finds_lookup hf
      exact ⟨slot, hs, rfl⟩

/-- The registry has for a sub-frame what its first event says: the first URL of the frame, unless it was seen
without one before. -/
theorem frame_url_of_first_event (gap : String) (options : Options) (events : List Event) :
    let translation := translate gap events
    let first? (frame : FrameId) := events.find? fun event => event.frame = frame
    translation.frames.ids.Pairwise (· < ·) ∧
    (∀ frame, frame ∈ translation.frames.ids ↔
      frame ≠ mainFrame ∧ ∃ event ∈ events, event.frame = frame) ∧
    (∀ frame, frame ≠ mainFrame →
      translation.frames.slot? frame = (first? frame).map Event.frameUrl ∧
      (translation.frames.url? frame = firstUrl? events frame ↔
        ∀ first, first? frame = some first → first.frameUrl = none →
          ∀ event ∈ events, event.frame = frame → event.frameUrl = none)) ∧
    ∀ line ∈ (options.arrange gap translation.blocks translation.frames).flatMap Block.lines,
      ∀ frame, line.Finds frame →
        ∃ first, first? frame = some first ∧ line = .lookup gap frame first.frameUrl ∧
          (first.frameUrl ≠ none → ∀ word, line = .lookup word frame first.frameUrl) := by
  intro translation first?
  refine ⟨ascending_frames_translate gap events, ?_, ?_, ?_⟩
  · intro frame
    rw [Registry.mem_ids]
    exact contains_frames_translate gap events frame
  · intro frame hmain
    exact ⟨slot?_frames_translate gap events hmain, url?_frames_eq_firstUrl?_iff gap events hmain⟩
  · intro line hl frame hf
    have hc : ∀ b ∈ translation.blocks, b.OfCommands gap := fun _ => ofCommands_translate
    obtain ⟨slot, hs, rfl⟩ := eq_lookup_of_finds hc options translation.frames line hl frame hf
    have hknown := Registry.contains_iff.mpr ⟨slot, hs⟩
    have hmain := ((contains_frames_translate gap events frame).mp hknown).1
    rw [slot?_frames_translate gap events hmain] at hs
    obtain ⟨first, hfirst, rfl⟩ := Option.map_eq_some_iff.mp hs
    refine ⟨first, hfirst, rfl, ?_⟩
    intro hurl word
    obtain ⟨url, hu⟩ := Option.ne_none_iff_exists'.mp hurl
    rw [hu]
    rfl

/-- The second event of the frame has a URL, which the test does not ask for. -/
theorem frame_url_of_later_event_unused :
    let events : List Event :=
      [⟨.click (some "#a"), some 4, none⟩, ⟨.click (some "#b"), some 4, some "https://a.test/"⟩]
    let translation := translate Command.placeholder events
    firstUrl? events 4 = some "https://a.test/" ∧
    translation.frames.slot? 4 = some none ∧
    "const frame_4 = frames.find(f => f.url() === 'undefined')" ∈
      ((Options.arrange Command.placeholder {} translation.blocks translation.frames).flatMap
        Block.lines).map Line.text := by
  decide +kernel

end Retrace
