import Retrace.Proofs.Recording.ViewportSide

/-! Viewport lines. A side is written as the gap where it is missing, as a decimal where it is a finite number,
and as a word where it was read from a text as a number that is not finite. -/
namespace Retrace
open Json (Value)

/-- How a side of a viewport is written. -/
inductive SideText (gap : String) : Option Binary64 → String → Prop
  | missing : SideText gap none gap
  | finite {x : Binary64} {text : String} (h : x.isFinite) (htext : IsDecimal text) :
    SideText gap (some x) text
  | nan : SideText gap (some .nan) "NaN"
  | infinite : SideText gap (some (.infinite false)) "inf"
  | negative : SideText gap (some (.infinite true)) "-inf"

namespace SideText
variable {gap text : String} {side : Option Binary64}

lemma numeral (gap : String) (side : Option Binary64) :
    SideText gap side (Command.numeral gap side) := by
  cases side with
  | none => exact .missing
  | some x =>
    cases x with
    | finite negative size => exact .finite rfl (NumberStyle.isDecimal_plain_finite negative size)
    | nan => exact .nan
    | infinite negative =>
      cases negative with
      | false => exact .infinite
      | true => exact .negative

lemma gap_or_decimal_iff (h : SideText gap side text) (hgap : gap ∉ NumberStyle.words) :
    text = gap ∨ IsDecimal text ↔ ∀ x, side = some x → x.isFinite := by
  have hword {word : String} {x : Binary64} (hw : word ∈ NumberStyle.words) (hx : ¬ x.isFinite) :
      word = gap ∨ IsDecimal word ↔ ∀ y, some x = some y → y.isFinite := by
    apply iff_of_false
    · rintro (rfl | hdecimal)
      · exact hgap hw
      · exact NumberStyle.not_isDecimal_of_mem_words hw hdecimal
    · exact fun hall => hx (hall x rfl)
  cases h with
  | missing => simp
  | finite hx htext => simp [hx, htext]
  | nan => exact hword (by decide) (by decide)
  | infinite => exact hword (by decide) (by decide)
  | negative => exact hword (by decide) (by decide)

end SideText

lemma Action.eq_viewport_of_tag {action : Action} {command : Command}
    (h : command ∈ action.bodyCommands) (ht : command.tag = .viewport) :
    ∃ size, action = .viewport size ∧
      command = .viewport (size.bind (·.width)) (size.bind (·.height)) := by
  cases issues_of_mem_bodyCommands h with
  | viewport size => exact ⟨size, rfl, rfl⟩
  | _ => cases ht

lemma exists_event_of_viewport_line {gap : String} {events : List Event} {line : Line}
    (h : line ∈ ((translate gap events).blocks ++ (translate gap events).setup).flatMap Block.lines)
    (ht : line.tag = some .viewport) : ∃ event ∈ events, ∃ size, event.action = .viewport size ∧
      line.text = (Command.viewport (size.bind (·.width)) (size.bind (·.height))).text gap
        (handleOf event.frame) := by
  rw [List.flatMap_append, List.mem_append, bodyLines_translate] at h
  rcases h with h | h
  · obtain ⟨event, he, hline⟩ := List.mem_flatMap.mp h
    obtain ⟨command, hc, rfl⟩ := List.mem_map.mp hline
    obtain ⟨size, haction, rfl⟩ := Action.eq_viewport_of_tag hc (Option.some.inj ht)
    exact ⟨event, he, size, haction, rfl⟩
  · obtain ⟨event, -, -, command, htag, rfl⟩ := mem_setupLines h
    cases htag.symm.trans (Option.some.inj ht)

/-- The sides in a viewport line are gaps and decimals, unless one was given as a text for no finite number. -/
theorem viewport_lines_of_recording (gap : String) {text : String} {events : List Event}
    (h : Event.readList text = .ok events) :
    (∀ line ∈ ((translate gap events).blocks ++ (translate gap events).setup).flatMap Block.lines,
      line.tag = some .viewport → ∃ event ∈ events, ∃ size, event.action = .viewport size ∧
        ∃ width height,
          line.text = handleOf event.frame ++ ".viewport(" ++ width ++ ", " ++ height ++ ")" ∧
          SideText gap (size.bind (·.width)) width ∧ SideText gap (size.bind (·.height)) height ∧
          (gap ∉ NumberStyle.words →
            ((width = gap ∨ IsDecimal width) ∧ (height = gap ∨ IsDecimal height) ↔
              ∀ x, size.bind (·.width) = some x ∨ size.bind (·.height) = some x → x.isFinite))) ∧
    ∀ event ∈ events, ∀ size, event.action = .viewport (some size) → ∀ x,
      size.width = some x ∨ size.height = some x → ¬ x.isFinite →
        ∃ side, (Json.Document.ofText text.toList).root.HasText side ∧
          Field.number (.scalar (.string side)) = some x ∧ IsBeyond (Text.trim side.toList) := by
  constructor
  · intro line hl ht
    obtain ⟨event, he, size, haction, htext⟩ := exists_event_of_viewport_line hl ht
    have hwidth := SideText.numeral gap (size.bind (·.width))
    have hheight := SideText.numeral gap (size.bind (·.height))
    refine ⟨event, he, size, haction, _, _, ?_, hwidth, hheight, fun hgap => ?_⟩
    · rw [htext]
      unfold Command.text
      rfl
    · rw [hwidth.gap_or_decimal_iff hgap, hheight.gap_or_decimal_iff hgap]
      constructor
      · rintro ⟨hw, hh⟩ x (hx | hx)
        · exact hw x hx
        · exact hh x hx
      · intro hall
        exact ⟨fun x hx => hall x (.inl hx), fun x hx => hall x (.inr hx)⟩
  · intro event he size hsize x hside hx
    exact exists_text_of_side h he hsize hside hx

/-- A viewport with a word for its height, and one by its sides in order of which only the width is given, as
a text. -/
def wordedRecording : Value := .array [
  .object [("frameId", .scalar (.number (.whole 12))), ("action", .string "viewport*"),
    ("value", .object [("height", .string " -Infinity"), ("width", .scalar (.number (.whole 1280)))])],
  .object [("action", .string "viewport*"), ("value", .array [.string ".50"])]]

def wordedEvents : List Event := [
  ⟨.viewport (some ⟨some (.ofInt 1280), some (.infinite true)⟩), some 12, none⟩,
  ⟨.viewport (some ⟨some Binary64.half, none⟩), none, none⟩]

lemma readList_wordedRecording : Event.readList wordedRecording.compact = .ok wordedEvents := by
  have hin : wordedRecording.Within Json.Outline.maxDepth := by
    simp [wordedRecording, Value.string, Json.Outline.maxDepth, Json.Scalar.InRange,
      Json.Number.InRange, twoTo]
  have hread := Json.readText_compact hin (by simp [wordedRecording, Value.string])
  have hkeys : wordedRecording.KeysDistinct := by simp [wordedRecording, Value.string]
  exact (Event.readList_eq_ok hread hkeys).mpr ⟨_, rfl, .cons ⟨_, rfl, rfl⟩ (.cons ⟨_, rfl, rfl⟩ .nil)⟩

theorem viewport_lines_of_worded_recording :
    Event.readList wordedRecording.compact = .ok wordedEvents ∧
    (translate "undefined" wordedEvents).blocks.flatMap Block.lines =
      [⟨some .viewport, "frame_12.viewport(1280, -inf)", some 12⟩,
        ⟨some .viewport, "cy.viewport(0.5, undefined)", none⟩] ∧
    ∃ side, (Json.Document.ofText wordedRecording.compact.toList).root.HasText side ∧
      Field.number (.scalar (.string side)) = some (.infinite true) ∧
      IsBeyond (Text.trim side.toList) := by
  refine ⟨readList_wordedRecording, by decide +kernel, ?_⟩
  exact (viewport_lines_of_recording "undefined" readList_wordedRecording).2
    ⟨.viewport (some ⟨some (.ofInt 1280), some (.infinite true)⟩), some 12, none⟩ (by simp [wordedEvents])
    _ rfl _ (.inr rfl) (by decide)

/-- A word and a numeral beyond all doubles are read as sides, and the line has words for them. -/
theorem viewport_line_with_words :
    let recording : Value := .array [.object [("action", .string "viewport*"),
      ("value", .object [("width", .string "NaN"), ("height", .string "1e999")])]]
    recording.compact =
      "[\x7b\"action\":\"viewport*\",\"value\":\x7b\"width\":\"NaN\",\"height\":\"1e999\"\x7d\x7d]" ∧
    ∃ events, Event.readList recording.compact = .ok events ∧
      (translate "undefined" events).blocks.flatMap Block.lines =
        [⟨some .viewport, "cy.viewport(NaN, inf)", none⟩] ∧
      ¬ ∃ width height, (width = "undefined" ∨ IsDecimal width) ∧
        (height = "undefined" ∨ IsDecimal height) ∧
        "cy.viewport(NaN, inf)" = "cy" ++ ".viewport(" ++ width ++ ", " ++ height ++ ")" := by
  intro recording
  have hin : recording.Within Json.Outline.maxDepth := by
    simp [recording, Value.string, Json.Outline.maxDepth, Json.Scalar.InRange]
  have hread := Json.readText_compact hin (by simp [recording, Value.string])
  have hkeys : recording.KeysDistinct := by simp [recording, Value.string]
  refine ⟨by decide +kernel, [⟨.viewport (some ⟨some .nan, some (.infinite false)⟩), none, none⟩],
    (Event.readList_eq_ok hread hkeys).mpr ⟨_, rfl, .cons ⟨_, rfl, rfl⟩ .nil⟩, by decide +kernel, ?_⟩
  rintro ⟨width, height, hwidth, -, he⟩
  have hlist := congrArg String.toList he
  simp only [String.toList_append, List.append_assoc] at hlist
  rcases hwidth with rfl | hdecimal
  · simp at hlist
  · obtain ⟨negative, c, rest, htext, hc⟩ := hdecimal.exists_digit
    rw [htext] at hlist
    cases negative <;> simp [Numeral.signText] at hlist
    simp [← hlist.1] at hc

end Retrace
