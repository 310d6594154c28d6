import Mathlib.Data.List.DropRight
import Retrace.Proofs.Registry

/-! The registry as its history makes it. What is known of a frame follows from the operations since it was
last taken. The law is shown for one operation and carried along a history, at its end. -/
namespace Retrace.Registry

/-- What can be done to a registry. -/
inductive Operation where
  | record (frame : FrameId) (url : Option String)
  | take (frame : FrameId)
  deriving DecidableEq

/-- The slot that an operation has for a frame. -/
def Operation.slot? (frame : FrameId) : Operation → Option (Option String)
  | record other url => if other = frame then some url else none
  | take _ => none

lemma Operation.slot?_eq_some {frame : FrameId} {operation : Operation} {slot : Option String} :
    operation.slot? frame = some slot ↔ operation = record frame slot := by
  cases operation with
  | record other url => by_cases h : other = frame <;> simp [Operation.slot?, h]
  | take other => simp [Operation.slot?]

def apply (registry : Registry) : Operation → Registry
  | .record frame url => registry.record frame url
  | .take frame => (registry.take frame).2

def run (registry : Registry) (history : List Operation) : Registry := history.foldl apply registry

@[simp] lemma run_concat (registry : Registry) (history : List Operation) (operation : Operation) :
    registry.run (history ++ [operation]) = (registry.run history).apply operation :=
  List.foldl_concat ..

/-! ### One operation -/

lemma Ascending.apply {registry : Registry} (h : registry.Ascending) (operation : Operation) :
    (registry.apply operation).Ascending := by
  cases operation with
  | record frame url => exact h.record frame url
  | take frame => exact h.erase frame

lemma slot?_apply {registry : Registry} (h : registry.Ascending) (operation : Operation)
    (frame : FrameId) : (registry.apply operation).slot? frame =
      if operation = .take frame then none
      else (registry.slot? frame).or (operation.slot? frame) := by
  cases operation with
  | record other url =>
    rw [if_neg Operation.noConfusion, apply, slot?_record h]
    simp only [Operation.slot?, eq_comm]
  | take other =>
    rw [apply, take, slot?_erase]
    by_cases hf : frame = other
    · rw [if_pos hf, if_pos (by rw [hf])]
    · rw [if_neg hf, if_neg (by simpa using Ne.symm hf), Operation.slot?, Option.or_none]

/-! ### Since a take -/

/-- The operations since a frame was last taken. -/
def sinceTake (frame : FrameId) (history : List Operation) : List Operation :=
  history.rtakeWhile (· ≠ .take frame)

section SinceTake
variable {frame : FrameId} {history later : List Operation} {operation : Operation}

lemma take_not_mem_sinceTake : .take frame ∉ sinceTake frame history := by
  intro h
  simpa using List.mem_rtakeWhile_imp h

lemma sinceTake_concat_take : sinceTake frame (history ++ [.take frame]) = [] :=
  List.rtakeWhile_concat_neg _ _ _ (by simp)

lemma sinceTake_append (h : .take frame ∉ later) :
    sinceTake frame (history ++ later) = sinceTake frame history ++ later := by
  have hlater : ∀ operation ∈ later.reverse, decide (operation ≠ .take frame) = true := by
    intro operation ho
    simpa using ne_of_mem_of_not_mem (List.mem_reverse.mp ho) h
  rw [sinceTake, sinceTake, List.rtakeWhile, List.rtakeWhile, List.reverse_append,
    List.takeWhile_append_of_pos hlater, List.reverse_append, List.reverse_reverse]

lemma mem_sinceTake (h : operation ≠ .take frame) : operation ∈ sinceTake frame history ↔
    ∃ before after, history = before ++ operation :: after ∧ .take frame ∉ after := by
  constructor
  · intro hmem
    obtain ⟨since, after, hsince⟩ := List.append_of_mem hmem
    obtain ⟨old, hold⟩ : sinceTake frame history <:+ history := List.rtakeWhile_suffix ..
    refine ⟨old ++ since, after, ?_, ?_⟩
    · rw [List.append_assoc, ← hsince, hold]
    · intro htake
      have hnone : .take frame ∉ sinceTake frame history := take_not_mem_sinceTake
      rw [hsince] at hnone
      exact hnone (List.mem_append_right _ (List.mem_cons_of_mem _ htake))
  · rintro ⟨before, after, rfl, hafter⟩
    rw [sinceTake_append (by simp [Ne.symm h, hafter])]
    exact List.mem_append_right _ List.mem_cons_self

end SinceTake

/-- The slot that the first record of a frame has for it. -/
def firstSlot? (frame : FrameId) (history : List Operation) : Option (Option String) :=
  history.findSome? (Operation.slot? frame)

@[simp] lemma firstSlot?_nil (frame : FrameId) : firstSlot? frame [] = none := rfl

@[simp] lemma firstSlot?_concat (frame : FrameId) (history : List Operation) (operation : Operation) :
    firstSlot? frame (history ++ [operation]) =
      (firstSlot? frame history).or (operation.slot? frame) := by
  simp [firstSlot?, List.findSome?_append]

lemma firstSlot?_isSome {frame : FrameId} {history : List Operation} :
    (firstSlot? frame history).isSome ↔ ∃ url, .record frame url ∈ history := by
  rw [firstSlot?, List.findSome?_isSome_iff]
  simp only [Option.isSome_iff_exists, Operation.slot?_eq_some]
  constructor
  · rintro ⟨operation, hmem, url, rfl⟩
    exact ⟨url, hmem⟩
  · rintro ⟨url, hmem⟩
    exact ⟨_, hmem, url, rfl⟩

/-! ### A history -/

theorem Ascending.run {registry : Registry} (h : registry.Ascending) (history : List Operation) :
    (registry.run history).Ascending := by
  induction history using List.reverseRecOn with
  | nil => exact h
  | append_singleton history operation ih =>
    rw [run_concat]
    exact ih.apply operation

/-- A history leaves of a frame what was known of it, unless it was taken, or else what was first recorded for
it since. -/
theorem slot?_run {registry : Registry} (h : registry.Ascending) (history : List Operation)
    (frame : FrameId) : (registry.run history).slot? frame =
      (if .take frame ∈ history then none else registry.slot? frame).or
        (firstSlot? frame (sinceTake frame history)) := by
  induction history using List.reverseRecOn with
  | nil => simp [Registry.run, sinceTake]
  | append_singleton history operation ih =>
    rw [run_concat, slot?_apply (h.run history)]
    by_cases ht : operation = .take frame
    · -- Both what was there before the history and what it recorded are gone.
      rw [if_pos ht, ht, sinceTake_concat_take]
      simp
    · have hmem : .take frame ∈ history ++ [operation] ↔ .take frame ∈ history := by
        simp [Ne.symm ht]
      rw [if_neg ht, ih, sinceTake_append (by simpa using Ne.symm ht), firstSlot?_concat,
        Option.or_assoc]
      simp only [hmem]

lemma slot?_run_empty (history : List Operation) (frame : FrameId) :
    (empty.run history).slot? frame = firstSlot? frame (sinceTake frame history) := by
  rw [slot?_run ascending_empty, slot?_empty, ite_self, Option.none_or]

lemma contains_run_empty (history : List Operation) (frame : FrameId) :
    (empty.run history).contains frame ↔
      ∃ before url after, history = before ++ .record frame url :: after ∧ .take frame ∉ after := by
  rw [contains, slot?_run_empty, firstSlot?_isSome, exists_comm]
  apply exists_congr
  intro url
  exact mem_sinceTake Operation.noConfusion

/-- Entries are written once until they are taken: a frame has the slot of its first record since its last
take. Frames stand in order. -/
theorem written_once_until_taken (history : List Operation) :
    let registry := empty.run history
    registry.ids.Pairwise (· < ·) ∧ registry.size = registry.ids.length ∧
    ∀ frame,
      let first? := firstSlot? frame (sinceTake frame history)
      let (slot, left) := registry.take frame
      (frame ∈ registry.ids ↔ registry.contains frame) ∧
      (registry.contains frame ↔
        ∃ before url after, history = before ++ .record frame url :: after ∧ .take frame ∉ after) ∧
      registry.url? frame = first?.join ∧
      (registry.contains frame → ∀ url, registry.record frame url = registry) ∧
      slot = first? ∧
      (slot.isSome ↔ registry.contains frame) ∧
      left.ids = registry.ids.erase frame ∧
      left.contains frame = false ∧
      ∀ other, other ≠ frame → left.slot? other = registry.slot? other := by
  intro registry
  have hascending : registry.Ascending := ascending_empty.run history
  refine ⟨hascending, (List.length_map _).symm, ?_⟩
  intro frame first?
  have hslot : registry.slot? frame = first? := slot?_run_empty history frame
  refine ⟨mem_ids, contains_run_empty history frame, congrArg Option.join hslot,
    hascending.record_of_contains, hslot, Iff.rfl, hascending.ids_erase frame, ?_, ?_⟩
  · simp [contains_erase]
  · intro other ho
    exact slot?_erase_of_ne ho registry

/-- Frame 2 was taken and recorded twice after that, frame 8 is known without a URL, and frame 5 was taken and
never recorded. -/
theorem written_once_until_taken_among_three_frames :
    let history : List Operation := [.record 8 none, .record 2 (some "a"), .take 2,
      .record 8 (some "b"), .take 5, .record 2 (some "c"), .record 2 (some "d")]
    let registry := empty.run history
    registry.ids = [2, 8] ∧ registry.url? 2 = some "c" ∧
    registry.contains 8 ∧ registry.record 8 (some "e") = registry ∧
    (registry.take 8).1 = some none ∧ (registry.take 5).1 = none ∧
    2 ≠ 8 ∧ (registry.take 8).2.slot? 2 = registry.slot? 2 := by
  intro history registry
  obtain ⟨-, -, hframe⟩ := written_once_until_taken history
  obtain ⟨-, -, hurl, -⟩ := hframe 2
  obtain ⟨-, -, -, -, hunknown, -⟩ := hframe 5
  obtain ⟨-, -, -, hrecord, hslot, -, -, -, hother⟩ := hframe 8
  have hknown : registry.contains 8 := by decide
  exact ⟨by decide, hurl, hknown, hrecord hknown (some "e"), hslot, hunknown, by decide,
    hother 2 (by decide)⟩

end Retrace.Registry
