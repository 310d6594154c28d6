import Retrace.Generator
import Retrace.Proofs.BodyPrefix

/-! Events that add nothing to a test. A scan that leaves them out knows fewer frames, but nobody asks for
those; a frame with lines may meet another event first. -/
namespace Retrace

namespace Action

/-- Whether an action adds nothing to a test. -/
def isIdle : Action → Bool
  | keydown .. | unknown => true
  | change _ _ tagName _ => !tagName.any changes
  | storage entries => (entries.getD []).isEmpty
  | click _ | visit _ | viewport _ | navigation _ | cookie _ => false

lemma bodyCommands_change_eq_nil {selector value tagName targetType : Option String} :
    (change selector value tagName targetType).bodyCommands = [] ↔ tagName.any changes = false := by
  simp only [bodyCommands]
  split
  · simp [changes]
  · simp [changes]
  · simp [changes]
  · rename_i hselect hinput _
    cases tagName with
    | none => simp
    | some name =>
      have hs : name ≠ "SELECT" := fun h => hselect (congrArg some h)
      have hi : name ≠ "INPUT" := fun h => hinput (congrArg some h)
      simp [changes, hs, hi]

theorem isIdle_iff {action : Action} (gap : String) (frame : FrameId) :
    action.isIdle ↔ action.bodyBlocks gap frame (handleOf frame) = [] ∧
      action.setupBlocks gap frame (handleOf frame) = [] := by
  unfold bodyBlocks setupBlocks
  cases action with
  | change selector value tagName targetType =>
    simp [isIdle, bodyCommands_change_eq_nil, setupCommands, waits]
  | _ => simp [isIdle, bodyCommands, setupCommands, waits]

end Action

lemma flatMap_filter_of_eq_nil {α β : Type} {f : α → List β} {keep : α → Bool} {xs : List α}
    (h : ∀ x ∈ xs, keep x = false → f x = []) : (xs.filter keep).flatMap f = xs.flatMap f := by
  induction xs with
  | nil => rfl
  | cons x rest ih =>
    obtain ⟨hx, hrest⟩ := List.forall_mem_cons.mp h
    cases hk : keep x with
    | true => rw [List.filter_cons_of_pos hk, List.flatMap_cons, List.flatMap_cons, ih hrest]
    | false =>
      rw [List.filter_cons_of_neg (by simp [hk]), List.flatMap_cons, hx hk, List.nil_append, ih hrest]

def withoutIdle (events : List Event) : List Event := events.filter fun event => !event.action.isIdle

lemma withoutIdle_subset (events : List Event) : withoutIdle events ⊆ events :=
  List.filter_subset_self _

lemma translate_withoutIdle (gap : String) (events : List Event) :
    (translate gap (withoutIdle events)).blocks = (translate gap events).blocks ∧
      (translate gap (withoutIdle events)).setup = (translate gap events).setup := by
  have hidle {event : Event} (h : (!event.action.isIdle) = false) :=
    (Action.isIdle_iff gap event.frame).mp (by simpa using h)
  rw [translate_eq, translate_eq]
  exact ⟨flatMap_filter_of_eq_nil fun event _ h => (hidle h).1,
    flatMap_filter_of_eq_nil fun event _ h => (hidle h).2⟩

/-! ### Frames -/

/-- All events of a sub-frame carry the same URL, or none of them carries one. -/
def UrlsAgree (events : List Event) : Prop :=
  ∀ event ∈ events, ∀ other ∈ events, event.frame = other.frame → event.frame ≠ mainFrame →
    event.frameUrl = other.frameUrl

namespace UrlsAgree
variable {events : List Event} (h : UrlsAgree events) (gap : String)
include h

lemma of_subset {part : List Event} (hs : part ⊆ events) : UrlsAgree part :=
  fun event he other ho => h event (hs he) other (hs ho)

lemma slot?_frames {event : Event} (he : event ∈ events) (hmain : event.frame ≠ mainFrame) :
    (translate gap events).frames.slot? event.frame = some event.frameUrl := by
  rw [slot?_frames_translate gap events hmain]
  cases hf : events.find? fun other => other.frame = event.frame with
  | none => exact absurd (decide_eq_true rfl) (List.find?_eq_none.mp hf event he)
  | some first =>
    have hsame : first.frame = event.frame := by simpa using List.find?_some hf
    have hurl := h event he first (List.mem_of_find?_eq_some hf) hsame.symm hmain
    rw [Option.map_some, hurl]

lemma slot?_frames_withoutIdle {block : Block} (hb : block ∈ (translate gap events).blocks)
    {frame : FrameId} (hu : block.Uses frame) :
    (translate gap (withoutIdle events)).frames.slot? frame =
      (translate gap events).frames.slot? frame := by
  -- The event of the block is not idle, and tells as much of its frame as an idle one before it.
  rw [← (translate_withoutIdle gap events).1] at hb
  obtain ⟨hmain, event, he, rfl⟩ :=
    (contains_frames_translate gap _ frame).mp (contains_frames_of_uses hb hu)
  have hs := withoutIdle_subset events
  rw [(h.of_subset hs).slot?_frames gap he hmain, h.slot?_frames gap (hs he) hmain]

end UrlsAgree

/-- Idle events have no blocks; where the URLs of each frame agree, the test is the same without them. -/
theorem idle_events_are_invisible (generator : Generator) {events : List Event}
    (h : UrlsAgree events) :
    (∀ event, event.action.isIdle ↔ (translate generator.gap [event]).blocks = [] ∧
      (translate generator.gap [event]).setup = []) ∧
    generator.test (withoutIdle events) = generator.test events := by
  obtain ⟨options, gap⟩ := generator
  constructor
  · intro event
    rw [Action.isIdle_iff gap event.frame, translate_eq]
    simp
  · obtain ⟨hblocks, hsetup⟩ := translate_withoutIdle gap events
    have hc : ∀ b ∈ (translate gap events).blocks, b.OfCommands gap := fun _ => ofCommands_translate
    have hbody := Options.arrange_congr hc
      (fun b hb frame hu => h.slot?_frames_withoutIdle gap hb hu) options
    simp only [Generator.test, hblocks, hsetup, hbody]

/-- The key and the change leave no trace of their frames, and the click is in one of these. -/
theorem idle_events_are_invisible_beside_click :
    let generator : Generator := { options := {} }
    let click : Event := ⟨.click (some "#b"), some 7, some "/a"⟩
    let events : List Event :=
      [⟨.keydown none none (some 9), some 7, some "/a"⟩, ⟨.change none none (some "P") none, some 8, none⟩,
        click, ⟨.storage (some []), none, some "/c"⟩, ⟨.unknown, none, none⟩]
    UrlsAgree events ∧ generator.test [click] = generator.test events := by
  intro generator click events
  have h : UrlsAgree events := by
    simp [UrlsAgree, events, click, Event.frame, mainFrame]
  exact ⟨h, (idle_events_are_invisible generator h).2⟩

end Retrace
