import Retrace.Proofs.Completeness

/-! A checked test against the checks. Generating stops at the first event with an error, and a check of the
recording goes through all its events, but the first error is the same. -/
namespace Retrace

namespace Findings

lemma foldl_merge (all : List Findings) (start : Findings) :
    all.foldl merge start =
      ⟨start.errors ++ all.flatMap errors, start.warnings ++ all.flatMap warnings⟩ := by
  induction all generalizing start with
  | nil => simp
  | cons first rest ih =>
    rw [List.foldl_cons, ih]
    simp [List.append_assoc]

end Findings

namespace Event

/-- What a check finds in a recording is what it finds in each event, below the index of the event. -/
theorem allFindings_eq (events : List Event) :
    let each := events.mapIdx fun i event => event.findings.inside (itemPath "events" i)
    allFindings events = ⟨each.flatMap Findings.errors, each.flatMap Findings.warnings⟩ :=
  Findings.foldl_merge _ _

lemma errors_allFindings (events : List Event) : (allFindings events).errors =
    (events.mapIdx fun i event => event.findings.inside (itemPath "events" i)).flatMap
      Findings.errors := by
  rw [allFindings_eq]

lemma isValid_allFindings {events : List Event} :
    (allFindings events).isValid ↔ ∀ event ∈ events, event.findings.isValid := by
  rw [Findings.isValid_iff, errors_allFindings, List.flatMap_eq_nil_iff]
  constructor
  · intro h event hm
    obtain ⟨i, hi, rfl⟩ := List.getElem_of_mem hm
    have hnil := h _ (List.mem_mapIdx.mpr ⟨i, hi, rfl⟩)
    exact Findings.isValid_iff.mpr (List.map_eq_nil_iff.mp hnil)
  · intro h findings hm
    obtain ⟨i, hi, rfl⟩ := List.mem_mapIdx.mp hm
    have hnil := Findings.isValid_iff.mp (h _ (List.getElem_mem hi))
    rw [Findings.errors_inside, hnil, List.map_nil]

lemma valid_or_first_invalid (events : List Event) :
    (∀ event ∈ events, event.findings.isValid) ∨ ∃ before event after finding more,
      events = before ++ event :: after ∧ (∀ e ∈ before, e.findings.isValid) ∧
        event.findings.errors = finding :: more := by
  cases hf : events.find? fun event => !event.findings.isValid with
  | none => exact .inl (by simpa using hf)
  | some event =>
    obtain ⟨hinvalid, before, after, he, hbefore⟩ := List.find?_eq_some_iff_append.mp hf
    have herrors : event.findings.errors ≠ [] := by
      intro hnil
      simp [Findings.isValid, hnil] at hinvalid
    obtain ⟨finding, more, hfinding⟩ := List.exists_cons_of_ne_nil herrors
    exact .inr ⟨before, event, after, finding, more, he, by simpa using hbefore, hfinding⟩

end Event

section FirstInvalid
variable {before : List Event} (h : ∀ event ∈ before, event.findings.isValid)
  {event : Event} {finding : Finding} {more : List Finding}
  (he : event.findings.errors = finding :: more) (after : List Event)
include h he

lemma Event.exists_errors_allFindings_eq : ∃ others,
    (allFindings (before ++ event :: after)).errors =
      finding.inside (itemPath "events" before.length) :: others := by
  have hbefore := Findings.isValid_iff.mp (isValid_allFindings.mpr h)
  rw [errors_allFindings] at hbefore ⊢
  simp only [List.mapIdx_append, List.flatMap_append, hbefore, List.nil_append, List.mapIdx_cons,
    List.flatMap_cons, Nat.zero_add, Findings.errors_inside, he, List.map_cons, List.cons_append]
  exact ⟨_, rfl⟩

lemma Generator.firstError?_eq_some :
    firstError? (before ++ event :: after) = some (before.length, finding) := by
  have hbefore : firstError? before = none := by
    apply firstError?_eq_none_iff.mpr
    intro event hm
    exact Findings.isValid_iff.mp (h event hm)
  rw [firstError?] at hbefore ⊢
  rw [List.mapIdx_append, List.findSome?_append, hbefore, Option.none_or, List.mapIdx_cons, he]
  simp

end FirstInvalid

lemma Options.check_eq_ok {options : Options} (h : options.findings.isValid) :
    options.check = .ok () := by
  rw [check, Findings.isValid_iff.mp h]

namespace Generator
variable {generator : Generator} {events : List Event}

lemma checkedTest_of_option_error {error : Finding} {more : List Finding}
    (h : generator.options.findings.errors = error :: more) :
    generator.checkedTest events = .error (.options ⟨error⟩) := by
  simp [checkedTest, Options.check, h, Except.mapError, bind, Except.bind]

lemma checkedTest_of_valid_options (h : generator.options.findings.isValid) :
    generator.checkedTest events =
      match firstError? events with
      | some (index, finding) => .error (.event index finding)
      | none => .ok (generator.test events) := by
  rw [checkedTest, Options.check_eq_ok h]
  cases firstError? events <;> rfl

lemma checkedTest_of_firstError? (h : generator.options.findings.isValid) {index : Nat}
    {finding : Finding} (hf : firstError? events = some (index, finding)) :
    generator.checkedTest events = .error (.event index finding) := by
  rw [checkedTest_of_valid_options h, hf]

end Generator

/-- A checked test is refused for the first error of the options, or else for the first one of the recording;
warnings play no part. -/
theorem checkedTest_follows_findings (generator : Generator) (events : List Event) :
    let recording := Event.allFindings events
    (∀ error others, generator.options.findings.errors = error :: others →
      generator.checkedTest events = .error (.options ⟨error⟩)) ∧
    (generator.options.findings.isValid → recording.isValid →
      generator.checkedTest events = .ok (generator.test events)) ∧
    (generator.options.findings.isValid → ∀ error others, recording.errors = error :: others →
      ∃ before event after finding, events = before ++ event :: after ∧
        (∀ e ∈ before, e.findings.isValid) ∧ ¬ event.findings.isValid ∧
        error.path = "events[" ++ toString before.length ++ "]." ++ finding.path ∧
        finding.text = finding.path ++ ": " ++ error.message ∧
        generator.checkedTest events = .error (.event before.length finding)) := by
  intro recording
  refine ⟨?_, ?_, ?_⟩
  · intro error others ho
    exact Generator.checkedTest_of_option_error ho
  · intro ho hr
    refine Generator.checkedTest_eq_ok.mpr ⟨Options.check_eq_ok ho, ?_, rfl⟩
    intro event hm
    exact Findings.isValid_iff.mp (Event.isValid_allFindings.mp hr event hm)
  · intro ho error others hr
    rcases Event.valid_or_first_invalid events with
      hvalid | ⟨before, event, after, finding, more, rfl, hbefore, hfinding⟩
    · have hnil := Findings.isValid_iff.mp (Event.isValid_allFindings.mpr hvalid)
      exact absurd (hr.symm.trans hnil) (List.cons_ne_nil error others)
    · obtain ⟨errors, herrors⟩ := Event.exists_errors_allFindings_eq hbefore hfinding after
      obtain ⟨rfl, -⟩ := List.cons.inj (herrors.symm.trans hr)
      refine ⟨before, event, after, finding, rfl, hbefore, ?_, ?_, rfl, ?_⟩
      · simp [Findings.isValid, hfinding]
      · simp [Finding.inside, itemPath, String.append_assoc]
      · exact Generator.checkedTest_of_firstError? ho
          (Generator.firstError?_eq_some hbefore hfinding after)

theorem checkedTest_refuses_second_event :
    let generator : Generator := { options := { blankLines := false, blankLineStyle := .separators } }
    let events : List Event := [.onMainPage .unknown, ⟨.click none, some 3, none⟩, .onMainPage (.visit none)]
    generator.options.findings.warnings ≠ [] ∧ generator.options.findings.isValid ∧
    (Event.allFindings events).errors.map Finding.path =
      ["events[1].frameUrl", "events[1].selector", "events[2].href"] ∧
    ∃ finding : Finding, finding.text = finding.path ++ ": " ++ "required for frame 3" ∧
      generator.checkedTest events = .error (.event 1 finding) := by
  intro generator events
  have ho : generator.options.findings.isValid := by decide
  refine ⟨by decide, ho, by decide +kernel, ?_⟩
  obtain ⟨before, event, after, finding, he, hbefore, hinvalid, -, ht, hc⟩ :=
    (checkedTest_follows_findings generator events).2.2 ho
      ⟨"events[1].frameUrl", "required for frame 3"⟩ _ rfl
  match before, he with
  | [], he =>
    obtain ⟨rfl, -⟩ := List.cons.inj he
    exact absurd rfl hinvalid
  | [_], _ => exact ⟨finding, ht, hc⟩
  | _ :: second :: _, he =>
    obtain ⟨-, htail⟩ := List.cons.inj he
    obtain ⟨rfl, -⟩ := List.cons.inj htail
    have hsecond := hbefore _ (List.mem_cons_of_mem _ List.mem_cons_self)
    exact absurd hsecond (by decide)

end Retrace
