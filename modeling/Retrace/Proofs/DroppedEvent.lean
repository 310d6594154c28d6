import Retrace.Proofs.IdleEvent
import Retrace.Proofs.Recording.MissingField

/-! Events that add nothing to a test, against the findings of a check. What is left out has a warning, lacks
what it is about, or has nothing to add. -/
namespace Retrace

namespace Action

lemma isIdle_of_warnings {action : Action} (h : action.warnings ≠ []) : action.isIdle := by
  cases action with
  | change selector value tagName targetType =>
    cases tagName with
    | none => exact absurd rfl h
    | some name =>
      have hname : changes name = false := by
        by_contra hc
        simp [warnings, hc] at h
      simp [isIdle, hname]
  | unknown => rfl
  | _ => exact absurd rfl h

lemma nothing_to_add_of_isIdle {action : Action} (h : action.isIdle) (herrors : action.errors = [])
    (hwarnings : action.warnings = []) :
    (∃ selector value keyCode, action = .keydown selector value keyCode) ∨
      action = .storage (some []) := by
  cases action with
  | keydown selector value keyCode => exact .inl ⟨selector, value, keyCode, rfl⟩
  | change selector value tagName targetType =>
    cases tagName with
    | none => simp [errors, require] at herrors
    | some name =>
      have hname : changes name = false := by simpa [isIdle] using h
      simp [warnings, hname] at hwarnings
  | storage entries =>
    cases entries with
    | none => simp [errors, require] at herrors
    | some entries =>
      have hempty : entries = [] := by simpa [isIdle] using h
      exact .inr (hempty ▸ rfl)
  | unknown => simp [warnings] at hwarnings
  | _ => simp [isIdle] at h

end Action

/-- The event at an index adds no blocks: behind the events before it, the translation has the same ones
without it. -/
def AddsNothing (gap : String) (events : List Event) (i : Nat) : Prop :=
  let before := translate gap (events.take i)
  let after := translate gap (events.take (i + 1))
  after.blocks = before.blocks ∧ after.setup = before.setup

lemma addsNothing_iff {gap : String} {events : List Event} {i : Nat} {event : Event}
    (h : events[i]? = some event) : AddsNothing gap events i ↔ event.action.isIdle := by
  have htake : events.take (i + 1) = events.take i ++ [event] := by
    rw [List.take_add_one, h]
    rfl
  have hown : (translate gap [event]).blocks =
        event.action.bodyBlocks gap event.frame (handleOf event.frame) ∧
      (translate gap [event]).setup =
        event.action.setupBlocks gap event.frame (handleOf event.frame) := by
    rw [translate_eq]
    simp
  rw [AddsNothing, htake, translate_append, Action.isIdle_iff gap event.frame, ← hown.1, ← hown.2]
  simp [Translation.append]

/-- A finding about the event at an index. -/
def Finding.Under (i : Nat) (finding : Finding) : Prop :=
  ∃ field, finding.path = fieldPath "events" i field

namespace Event
variable {events : List Event} {i : Nat}

lemma exists_under_iff {part : Findings → List Finding}
    (hpart : ∀ parent (findings : Findings),
      part (findings.inside parent) = (part findings).map (.inside parent)) :
    (∃ finding ∈ (events.mapIdx fun k e => e.findings.inside (itemPath "events" k)).flatMap part,
      finding.Under i) ↔ ∃ event, events[i]? = some event ∧ part event.findings ≠ [] := by
  constructor
  · rintro ⟨finding, hm, field, hpath⟩
    obtain ⟨k, event, hevent, hfinding⟩ := mem_flatMap_mapIdx.mp hm
    rw [hpart] at hfinding
    obtain ⟨inner, hinner, hk⟩ := path_of_mem_inside hfinding
    obtain ⟨rfl, -⟩ := fieldPath_injective (hk.symm.trans hpath)
    exact ⟨event, hevent, List.ne_nil_of_mem hinner⟩
  · rintro ⟨event, hevent, hne⟩
    obtain ⟨inner, hinner⟩ := List.exists_mem_of_ne_nil _ hne
    refine ⟨inner.inside (itemPath "events" i), ?_, inner.path, Finding.path_inside _ _ _⟩
    refine mem_flatMap_mapIdx.mpr ⟨i, event, hevent, ?_⟩
    rw [hpart]
    exact List.mem_map_of_mem hinner

lemma exists_warning_under_iff : (∃ warning ∈ (allFindings events).warnings, warning.Under i) ↔
    ∃ event, events[i]? = some event ∧ event.findings.warnings ≠ [] := by
  rw [allFindings_eq]
  exact exists_under_iff fun _ _ => rfl

lemma exists_error_under_iff : (∃ error ∈ (allFindings events).errors, error.Under i) ↔
    ∃ event, events[i]? = some event ∧ event.findings.errors ≠ [] := by
  rw [allFindings_eq]
  exact exists_under_iff fun _ _ => rfl

/-- An event with a warning adds no blocks. One that adds none and has no finding is a key, or sets the
storage to no entries. -/
theorem nothing_dropped_without_finding (gap : String) (events : List Event) :
    let found := allFindings events
    (∀ i, (∃ warning ∈ found.warnings, warning.Under i) → AddsNothing gap events i) ∧
    ∀ i event, events[i]? = some event → AddsNothing gap events i →
      (∀ finding ∈ found.errors ++ found.warnings, ¬ finding.Under i) →
        (∃ selector value keyCode, event.action = .keydown selector value keyCode) ∨
          event.action = .storage (some []) := by
  intro found
  constructor
  · intro i hwarned
    obtain ⟨event, hevent, hne⟩ := exists_warning_under_iff.mp hwarned
    exact (addsNothing_iff hevent).mpr (Action.isIdle_of_warnings hne)
  · intro i event hevent hnothing hunder
    have hwarnings : event.findings.warnings = [] := by
      by_contra hne
      obtain ⟨warning, hm, hw⟩ := exists_warning_under_iff.mpr ⟨event, hevent, hne⟩
      exact hunder warning (List.mem_append_right _ hm) hw
    have herrors : event.findings.errors = [] := by
      by_contra hne
      obtain ⟨error, hm, he⟩ := exists_error_under_iff.mpr ⟨event, hevent, hne⟩
      exact hunder error (List.mem_append_left _ hm) he
    exact Action.nothing_to_add_of_isIdle ((addsNothing_iff hevent).mp hnothing)
      (List.append_eq_nil_iff.mp herrors).2 hwarnings

/-- The change is of an element that has no command, and the storage behind it has no entries. -/
theorem nothing_dropped_beside_unsupported_change :
    let storage : Event := ⟨.storage (some []), some 12, some "/a"⟩
    let events : List Event := [.onMainPage (.click none),
      .onMainPage (.change (some "#a") (some "v") (some "P") none), storage]
    let found := allFindings events
    (∃ warning ∈ found.warnings, warning.Under 1) ∧ AddsNothing "undefined" events 1 ∧
    AddsNothing "undefined" events 2 ∧
    (∀ finding ∈ found.errors ++ found.warnings, ¬ finding.Under 2) ∧
    ((∃ selector value keyCode, storage.action = .keydown selector value keyCode) ∨
      storage.action = .storage (some [])) := by
  intro storage events found
  obtain ⟨hwarned, hsilent⟩ := nothing_dropped_without_finding "undefined" events
  have hwarning : ∃ warning ∈ found.warnings, warning.Under 1 :=
    ⟨⟨"events[1].tagName", "change on P is not translated"⟩, by decide +kernel, "tagName",
      by decide +kernel⟩
  have hnothing : AddsNothing "undefined" events 2 := (addsNothing_iff rfl).mpr rfl
  have hpaths : (found.errors ++ found.warnings).map Finding.path =
      [fieldPath "events" 0 "selector", fieldPath "events" 1 "tagName"] := by decide +kernel
  have hunder : ∀ finding ∈ found.errors ++ found.warnings, ¬ finding.Under 2 := by
    rintro finding hm ⟨field, hpath⟩
    have hlisted := hpaths ▸ List.mem_map_of_mem hm
    rw [hpath] at hlisted
    rcases List.mem_cons.mp hlisted with he | hlisted
    · exact absurd (fieldPath_injective he).1 (by decide)
    · exact absurd (fieldPath_injective (List.mem_singleton.mp hlisted)).1 (by decide)
  exact ⟨hwarning, hwarned 1 hwarning, hnothing, hunder, hsilent 2 storage rfl hnothing hunder⟩

end Event
end Retrace
