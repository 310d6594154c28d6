import Mathlib.Tactic.Common
import Retrace.Frame

/-! Laws of the registry: recording or erasing a frame changes what is known of that frame only, and
recording keeps the frames in order. -/
namespace Retrace.Registry

@[simp] theorem slot?_empty (frame : FrameId) : empty.slot? frame = none := rfl

lemma lookup_insert_of_ne {frame other : FrameId} (h : other ≠ frame) (url : Option String)
    (entries : List (FrameId × Option String)) :
    (insert frame url entries).lookup other = entries.lookup other := by
  induction entries with
  | nil => simp [insert, List.lookup_cons, beq_false_of_ne h]
  | cons entry rest ih =>
    obtain ⟨id, u⟩ := entry
    simp only [insert]
    split_ifs with hlt heq
    · rw [List.lookup_cons, beq_false_of_ne h]
    · rfl
    · simp only [List.lookup_cons, ih]

lemma lookup_insert_isSome (frame : FrameId) (url : Option String)
    (entries : List (FrameId × Option String)) :
    ((insert frame url entries).lookup frame).isSome := by
  induction entries with
  | nil => simp [insert]
  | cons entry rest ih =>
    obtain ⟨id, u⟩ := entry
    simp only [insert]
    split_ifs with hlt heq
    · simp
    · simp [heq]
    · simpa [List.lookup_cons, beq_false_of_ne heq] using ih

theorem slot?_record_of_ne {frame other : FrameId} (h : other ≠ frame) (registry : Registry)
    (url : Option String) : (registry.record frame url).slot? other = registry.slot? other :=
  lookup_insert_of_ne h url registry.entries

@[simp] theorem contains_record (registry : Registry) (frame other : FrameId)
    (url : Option String) : (registry.record frame url).contains other ↔
      other = frame ∨ registry.contains other := by
  by_cases h : other = frame
  · subst h
    simp only [true_or, iff_true]
    exact lookup_insert_isSome other url registry.entries
  · simp [contains, slot?_record_of_ne h, h]

theorem contains_iff {registry : Registry} {frame : FrameId} :
    registry.contains frame ↔ ∃ slot, registry.slot? frame = some slot := Option.isSome_iff_exists

theorem slot?_erase (registry : Registry) (frame other : FrameId) :
    (registry.erase frame).slot? other = if other = frame then none else registry.slot? other := by
  obtain ⟨entries⟩ := registry
  simp only [erase, slot?]
  induction entries with
  | nil => simp
  | cons entry rest ih =>
    obtain ⟨id, u⟩ := entry
    by_cases hid : id = frame
    · subst hid
      rw [List.filter_cons_of_neg (by simp), ih]
      split_ifs with h
      · rfl
      · rw [List.lookup_cons, beq_false_of_ne h]
    · rw [List.filter_cons_of_pos (by simpa using hid), List.lookup_cons, List.lookup_cons, ih]
      by_cases ho : other = id
      · simp [ho, hid]
      · simp [beq_false_of_ne ho]

@[simp] theorem slot?_erase_self (registry : Registry) (frame : FrameId) :
    (registry.erase frame).slot? frame = none := by simp [slot?_erase]

theorem slot?_erase_of_ne {frame other : FrameId} (h : other ≠ frame) (registry : Registry) :
    (registry.erase frame).slot? other = registry.slot? other := by simp [slot?_erase, h]

theorem contains_erase (registry : Registry) (frame other : FrameId) :
    (registry.erase frame).contains other = (other != frame && registry.contains other) := by
  rw [contains, slot?_erase, contains]
  by_cases h : other = frame <;> simp [h]

theorem mem_ids {registry : Registry} {frame : FrameId} :
    frame ∈ registry.ids ↔ registry.contains frame := by
  rw [contains, slot?, List.lookup_isSome_iff, ids, List.mem_map]
  constructor
  · rintro ⟨entry, he, rfl⟩
    exact ⟨entry, he, beq_self_eq_true _⟩
  · rintro ⟨entry, he, hf⟩
    exact ⟨entry, he, (eq_of_beq hf).symm⟩

theorem contains_of_isEmpty {registry : Registry} (h : registry.isEmpty) (frame : FrameId) :
    registry.contains frame = false := by
  simp [contains, slot?, List.isEmpty_iff.mp h]

/-! ### Order -/

/-- Frames stand in ascending order, each of them once. -/
def Ascending (registry : Registry) : Prop := registry.ids.Pairwise (· < ·)

lemma ascending_empty : empty.Ascending := .nil

lemma ascending_cons {entry : FrameId × Option String} {rest : List (FrameId × Option String)} :
    Ascending ⟨entry :: rest⟩ ↔ (∀ other ∈ rest, entry.1 < other.1) ∧ Ascending ⟨rest⟩ := by
  simp [Ascending, ids]

lemma mem_insert {frame : FrameId} {url : Option String} {entries : List (FrameId × Option String)}
    {entry : FrameId × Option String} (h : entry ∈ insert frame url entries) :
    entry = (frame, url) ∨ entry ∈ entries := by
  induction entries with
  | nil => exact .inl (List.mem_singleton.mp h)
  | cons first rest ih =>
    simp only [insert] at h
    split_ifs at h
    · exact List.mem_cons.mp h
    · exact .inr h
    · rcases List.mem_cons.mp h with rfl | h
      · exact .inr List.mem_cons_self
      · exact (ih h).imp_right (List.mem_cons_of_mem _)

lemma slot?_cons (frame : FrameId) (slot : Option String)
    (entries : List (FrameId × Option String)) (other : FrameId) :
    slot? ⟨(frame, slot) :: entries⟩ other =
      if other = frame then some slot else slot? ⟨entries⟩ other := by
  by_cases h : other = frame
  · simp [slot?, h]
  · simp [slot?, List.lookup_cons, beq_false_of_ne h, h]

lemma slot?_of_forall_lt {frame : FrameId} {entries : List (FrameId × Option String)}
    (h : ∀ entry ∈ entries, frame < entry.1) : slot? ⟨entries⟩ frame = none := by
  apply List.lookup_eq_none_iff.mpr
  intro entry he
  exact bne_iff_ne.mpr (Nat.ne_of_lt (h entry he))

lemma Ascending.slot?_of_lt {entry : FrameId × Option String}
    {rest : List (FrameId × Option String)} (h : Ascending ⟨entry :: rest⟩) {frame : FrameId}
    (hlt : frame < entry.1) : slot? ⟨entry :: rest⟩ frame = none := by
  apply slot?_of_forall_lt
  intro other ho
  rcases List.mem_cons.mp ho with rfl | ho
  · exact hlt
  · exact Nat.lt_trans hlt ((ascending_cons.mp h).1 other ho)

theorem Ascending.record {registry : Registry} (h : registry.Ascending) (frame : FrameId)
    (url : Option String) : (registry.record frame url).Ascending := by
  obtain ⟨entries⟩ := registry
  induction entries with
  | nil => exact List.pairwise_singleton _ _
  | cons entry rest ih =>
    obtain ⟨id, u⟩ := entry
    obtain ⟨hlt, hrest⟩ := ascending_cons.mp h
    simp only [Registry.record, insert]
    split_ifs with hbefore hsame
    · apply ascending_cons.mpr
      refine ⟨?_, h⟩
      intro other ho
      rcases List.mem_cons.mp ho with rfl | ho
      · exact hbefore
      · exact Nat.lt_trans hbefore (hlt other ho)
    · exact h
    · apply ascending_cons.mpr
      refine ⟨?_, ih hrest⟩
      intro other ho
      rcases mem_insert ho with rfl | ho
      · exact Nat.lt_of_le_of_ne (Nat.le_of_not_lt hbefore) (Ne.symm hsame)
      · exact hlt other ho

theorem Ascending.erase {registry : Registry} (h : registry.Ascending) (frame : FrameId) :
    (registry.erase frame).Ascending :=
  h.sublist (List.filter_sublist.map _)

theorem Ascending.ids_erase {registry : Registry} (h : registry.Ascending) (frame : FrameId) :
    (registry.erase frame).ids = registry.ids.erase frame := by
  have hnodup : registry.ids.Nodup := h.imp Nat.ne_of_lt
  rw [hnodup.erase_eq_filter]
  simp [Registry.erase, ids, List.filter_map, Function.comp_def]

theorem slot?_record {registry : Registry} (h : registry.Ascending) (frame other : FrameId)
    (url : Option String) : (registry.record frame url).slot? other =
      (registry.slot? other).or (if other = frame then some url else none) := by
  by_cases ho : other = frame
  · subst ho
    rw [if_pos rfl]
    obtain ⟨entries⟩ := registry
    induction entries with
    | nil => simp [Registry.record, insert, slot?]
    | cons entry rest ih =>
      obtain ⟨id, u⟩ := entry
      obtain ⟨hlt, hrest⟩ := ascending_cons.mp h
      have hrec := ih hrest
      simp only [Registry.record, insert] at hrec ⊢
      split_ifs with hbefore hsame
      · rw [slot?_cons, if_pos rfl, h.slot?_of_lt hbefore]
        rfl
      · rw [slot?_cons, if_pos hsame]
        rfl
      · rw [slot?_cons, slot?_cons, if_neg hsame, if_neg hsame, hrec]
  · rw [slot?_record_of_ne ho, if_neg ho, Option.or_none]

lemma Ascending.le_of_slot? {entry : FrameId × Option String}
    {rest : List (FrameId × Option String)} (h : Ascending ⟨entry :: rest⟩) {frame : FrameId}
    {slot : Option String} (hs : Registry.slot? ⟨entry :: rest⟩ frame = some slot) :
    entry.1 ≤ frame := by
  by_contra hle
  have hnone := h.slot?_of_lt (Nat.lt_of_not_le hle)
  simp [hnone] at hs

/-- An ascending registry is what it knows of each frame. -/
theorem ext_slot? {registry other : Registry} (h : registry.Ascending) (ho : other.Ascending)
    (hs : ∀ frame, registry.slot? frame = other.slot? frame) : registry = other := by
  obtain ⟨entries⟩ := registry
  obtain ⟨others⟩ := other
  induction entries generalizing others with
  | nil =>
    cases others with
    | nil => rfl
    | cons entry rest =>
      obtain ⟨id, u⟩ := entry
      have hslot := hs id
      simp [slot?] at hslot
  | cons entry rest ih =>
    obtain ⟨id, u⟩ := entry
    cases others with
    | nil =>
      have hslot := hs id
      simp [slot?] at hslot
    | cons entry rest' =>
      obtain ⟨id', u'⟩ := entry
      have hfirst : slot? ⟨(id, u) :: rest⟩ id = some u := by simp [slot?_cons]
      have hfirst' : slot? ⟨(id', u') :: rest'⟩ id' = some u' := by simp [slot?_cons]
      have hid : id = id' :=
        Nat.le_antisymm (h.le_of_slot? ((hs id').trans hfirst')) (ho.le_of_slot? (hs id ▸ hfirst))
      subst hid
      have hslot : u = u' := by
        rw [hs id, hfirst'] at hfirst
        exact (Option.some.inj hfirst).symm
      obtain ⟨hlt, hrest⟩ := ascending_cons.mp h
      obtain ⟨hlt', hrest'⟩ := ascending_cons.mp ho
      have htail : Registry.mk rest = ⟨rest'⟩ := by
        apply ih hrest rest' hrest'
        intro frame
        by_cases hf : frame = id
        · rw [hf, slot?_of_forall_lt hlt, slot?_of_forall_lt hlt']
        · have hframe := hs frame
          rwa [slot?_cons, slot?_cons, if_neg hf, if_neg hf] at hframe
      rw [hslot, Registry.mk.inj htail]

theorem Ascending.record_of_contains {registry : Registry} (h : registry.Ascending) {frame : FrameId}
    (hf : registry.contains frame) (url : Option String) : registry.record frame url = registry := by
  apply ext_slot? (h.record frame url) h
  intro other
  rw [slot?_record h]
  by_cases ho : other = frame
  · obtain ⟨slot, hs⟩ := contains_iff.mp hf
    rw [ho, hs, Option.some_or]
  · rw [if_neg ho, Option.or_none]

end Retrace.Registry
