import Mathlib.Data.List.Find
import Retrace.Proofs.FrameDeclaration
import Retrace.Proofs.Layout.Text
import Retrace.Proofs.TranslationAppend

/-! A recording that goes on. The scan asks the registry for the frames of the blocks at hand only, and of
those the longer recording knows no more than the shorter. -/
namespace Retrace

namespace Block
variable {registry other : Registry} {block : Block}

lemma pendingFrame?_congr
    (h : ∀ frame, block.Uses frame → registry.slot? frame = other.slot? frame) :
    block.pendingFrame? registry = block.pendingFrame? other := by
  apply List.find?_congr
  intro frame hm
  have hu : block.Uses frame := List.mem_filterMap.mp hm
  rw [Registry.contains, Registry.contains, h frame hu]

theorem declare_congr (gap : String)
    (h : ∀ frame, block.Uses frame → registry.slot? frame = other.slot? frame) :
    (block.declare gap registry).1 = (block.declare gap other).1 ∧
    ∀ frame, registry.slot? frame = other.slot? frame →
      (block.declare gap registry).2.slot? frame = (block.declare gap other).2.slot? frame := by
  unfold declare
  rw [pendingFrame?_congr h]
  cases hp : block.pendingFrame? other with
  | none => exact ⟨rfl, fun _ hf => hf⟩
  | some pending =>
    have hu : block.Uses pending := List.mem_filterMap.mp (List.mem_of_find?_eq_some hp)
    refine ⟨by simp only [h pending hu], ?_⟩
    intro frame hf
    simp only [Registry.slot?_erase, hf]

end Block

/-- Registries that know the same of all frames that are used declare the same. -/
theorem declareUsedFrames_congr (gap : String) {blocks : List Block} {registry other : Registry}
    (h : ∀ b ∈ blocks, ∀ frame, b.Uses frame → registry.slot? frame = other.slot? frame) :
    (declareUsedFrames gap blocks registry).1 = (declareUsedFrames gap blocks other).1 := by
  induction blocks generalizing registry other with
  | nil => rfl
  | cons first rest ih =>
    obtain ⟨hfirst, hrest⟩ := List.forall_mem_cons.mp h
    obtain ⟨hblock, hleft⟩ := Block.declare_congr gap hfirst
    have htail := ih fun b hb frame hu => hleft frame (hrest b hb frame hu)
    rw [declareUsedFrames_cons, declareUsedFrames_cons, hblock, htail]

lemma Options.arrange_congr {gap : String} {blocks : List Block} (hc : ∀ b ∈ blocks, b.OfCommands gap)
    {registry other : Registry}
    (h : ∀ b ∈ blocks, ∀ frame, b.Uses frame → registry.slot? frame = other.slot? frame)
    (options : Options) : options.arrange gap blocks registry = options.arrange gap blocks other := by
  by_cases hd : options.declareFrames
  · rw [arrange_eq hd hc, arrange_eq hd hc, declareUsedFrames_congr gap h]
  · simp [arrange, hd]

lemma prefix_declareUsedFrames (gap : String) {blocks more : List Block} (h : blocks <+: more)
    (registry : Registry) :
    (declareUsedFrames gap blocks registry).1 <+: (declareUsedFrames gap more registry).1 := by
  obtain ⟨added, rfl⟩ := h
  induction blocks generalizing registry with
  | nil => exact List.nil_prefix
  | cons first rest ih =>
    rw [List.cons_append, declareUsedFrames_cons, declareUsedFrames_cons]
    exact List.cons_prefix_cons.mpr ⟨rfl, ih _⟩

lemma prefix_spaced {blocks more : List Block} (h : blocks <+: more) (spaced : Bool) :
    (if spaced then separate blocks else blocks) <+: if spaced then separate more else more := by
  cases spaced with
  | false => exact h
  | true =>
    obtain ⟨added, rfl⟩ := h
    cases blocks with
    | nil => exact List.nil_prefix
    | cons first rest => simp [separate]

lemma prefix_arrange_of_prefix (gap : String) (options : Options) {blocks more : List Block}
    (h : blocks <+: more) (frames : Registry) :
    options.arrange gap blocks frames <+: options.arrange gap more frames := by
  unfold Options.arrange
  apply prefix_spaced
  split_ifs
  · exact prefix_declareUsedFrames gap h frames
  · exact h

lemma Layout.exists_body_eq_append (options : Options) {blocks more : List Block} (h : blocks <+: more) :
    ∃ added, body options more = body options blocks ++ added := by
  obtain ⟨added, rfl⟩ := h
  refine ⟨lines options (bodyEnd options) added, ?_⟩
  rw [body_eq, body_eq, lines_append]

lemma slot?_frames_of_mem (gap : String) {first : List Event} {event : Event} (h : event ∈ first)
    (second : List Event) :
    (translate gap (first ++ second)).frames.slot? event.frame =
      (translate gap first).frames.slot? event.frame := by
  by_cases hmain : event.frame = mainFrame
  · have hnone (events : List Event) :
        (translate gap events).frames.slot? event.frame = none := by
      have hc := mt (contains_frames_translate gap events event.frame).mp fun h => h.1 hmain
      simpa [Registry.contains] using hc
    rw [hnone, hnone]
  · have hc := (contains_frames_translate gap first event.frame).mpr ⟨hmain, event, h, rfl⟩
    obtain ⟨slot, hs⟩ := Registry.contains_iff.mp hc
    rw [slot?_frames_append, hs, Option.some_or]

/-- The blocks of the shorter recording, as laid out, stand at the start of those of the longer one. -/
theorem prefix_arrange (gap : String) (options : Options) (first second : List Event) :
    let one := translate gap first
    let both := translate gap (first ++ second)
    options.arrange gap one.blocks one.frames <+: options.arrange gap both.blocks both.frames := by
  intro one both
  have hblocks : one.blocks <+: both.blocks := by
    have h : both = one.append (translate gap second) := translate_append gap first second
    rw [h]
    exact List.prefix_append _ _
  have hknown : ∀ b ∈ one.blocks, ∀ frame, b.Uses frame →
      one.frames.slot? frame = both.frames.slot? frame := by
    intro b hb frame hu
    have hc := contains_frames_of_uses hb hu
    obtain ⟨-, event, he, rfl⟩ := (contains_frames_translate gap first frame).mp hc
    exact (slot?_frames_of_mem gap he second).symm
  have hc : ∀ b ∈ one.blocks, b.OfCommands gap := fun _ => ofCommands_translate
  rw [Options.arrange_congr hc hknown options]
  exact prefix_arrange_of_prefix gap options hblocks both.frames

/-- Events that are added rewrite nothing: body and setup go on, and every frame keeps its URL. -/
theorem earlier_output_stays (gap : String) (options : Options) (first second : List Event) :
    let one := translate gap first
    let both := translate gap (first ++ second)
    (∃ added, Layout.body options (options.arrange gap both.blocks both.frames) =
      Layout.body options (options.arrange gap one.blocks one.frames) ++ added) ∧
    one.setup.flatMap Block.lines <+: both.setup.flatMap Block.lines ∧
    ∀ event ∈ first, both.frames.slot? event.frame = one.frames.slot? event.frame := by
  intro one both
  refine ⟨?_, ?_, ?_⟩
  · exact Layout.exists_body_eq_append options (prefix_arrange gap options first second)
  · have h : both = one.append (translate gap second) := translate_append gap first second
    rw [h, Translation.append, List.flatMap_append]
    exact List.prefix_append _ _
  · intro event he
    exact slot?_frames_of_mem gap he second

/-- A frame that was first seen without a URL stays without one when its URL follows. -/
theorem earlier_output_stays_without_url :
    let options : Options := { blankLineStyle := .separators }
    let first : List Event := [⟨.click (some "#a"), some 3, none⟩]
    let second : List Event := [⟨.click (some "#b"), some 3, some "/b"⟩, ⟨.cookie none, none, none⟩]
    let one := translate "gap" first
    let both := translate "gap" (first ++ second)
    one.frames.slot? 3 = some none ∧ both.frames.slot? 3 = one.frames.slot? 3 ∧
    ∃ added, Layout.body options (options.arrange "gap" both.blocks both.frames) =
      Layout.body options (options.arrange "gap" one.blocks one.frames) ++ added := by
  intro options first second one both
  obtain ⟨hbody, -, hframes⟩ := earlier_output_stays "gap" options first second
  exact ⟨by decide, hframes _ (List.mem_singleton_self _), hbody⟩

end Retrace
