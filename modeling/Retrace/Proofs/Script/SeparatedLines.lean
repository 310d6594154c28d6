import Mathlib.Data.List.Chain
import Retrace.Proofs.FrameDeclaration

/-! Separators as they are printed. A separator stands before the first block and after every block, also
after a block without lines, so the lines of a body are spaced twice exactly where an event waits for a
page. -/
namespace Retrace

/-- Groups of lines with one blank line before, between and after them. -/
def spaced : List (List Line) → List Line
  | [] => []
  | groups => .blank :: groups.flatMap fun group => group ++ [.blank]

/-- No separator follows another one. -/
def SingleSpaced (lines : List Line) : Prop :=
  lines.IsChain fun first second => ¬ (first.isStructural ∧ second.isStructural)

/-- How often a separator follows another one. -/
def doubledSpaces : List Line → Nat
  | first :: second :: rest =>
    (if first.isStructural ∧ second.isStructural then 1 else 0) + doubledSpaces (second :: rest)
  | _ => 0

lemma singleSpaced_iff {lines : List Line} : SingleSpaced lines ↔ doubledSpaces lines = 0 := by
  unfold SingleSpaced
  induction lines with
  | nil => simp [doubledSpaces]
  | cons first rest ih =>
    cases rest with
    | nil => simp [doubledSpaces]
    | cons second rest =>
      rw [List.isChain_cons_cons, ih, doubledSpaces]
      split_ifs with hboth
      · simp [hboth]
      · simp [hboth]

section Groups

lemma doubledSpaces_cons {first : Line} (h : ¬ first.isStructural) (rest : List Line) :
    doubledSpaces (first :: rest) = doubledSpaces rest := by
  cases rest with
  | nil => rfl
  | cons second rest => simp [doubledSpaces, h]

lemma doubledSpaces_append {group : List Line} (h : ∀ line ∈ group, ¬ line.isStructural)
    (rest : List Line) : doubledSpaces (group ++ rest) = doubledSpaces rest := by
  induction group with
  | nil => rfl
  | cons first group ih =>
    obtain ⟨hfirst, hgroup⟩ := List.forall_mem_cons.mp h
    rw [List.cons_append, doubledSpaces_cons hfirst, ih hgroup]

lemma doubledSpaces_blank_append {group : List Line} (h : ∀ line ∈ group, ¬ line.isStructural)
    (rest : List Line) : doubledSpaces (.blank :: (group ++ .blank :: rest)) =
      (if group.isEmpty then 1 else 0) + doubledSpaces (.blank :: rest) := by
  cases group with
  | nil => rfl
  | cons first group =>
    have hfirst := (List.forall_mem_cons.mp h).1
    rw [List.cons_append, doubledSpaces, ← List.cons_append, doubledSpaces_append h]
    simp [hfirst]

theorem doubledSpaces_spaced {groups : List (List Line)}
    (h : ∀ group ∈ groups, ∀ line ∈ group, ¬ line.isStructural) :
    doubledSpaces (spaced groups) = groups.countP List.isEmpty := by
  have hopen : doubledSpaces (.blank :: groups.flatMap fun group => group ++ [.blank]) =
      groups.countP List.isEmpty := by
    induction groups with
    | nil => rfl
    | cons group groups ih =>
      obtain ⟨hgroup, hgroups⟩ := List.forall_mem_cons.mp h
      rw [List.flatMap_cons, List.append_assoc, List.singleton_append,
        doubledSpaces_blank_append hgroup, ih hgroups, List.countP_cons, Nat.add_comm]
  cases groups with
  | nil => rfl
  | cons group groups => exact hopen

end Groups

lemma lines_separate (blocks : List Block) :
    (separate blocks).flatMap Block.lines = spaced (blocks.map Block.lines) := by
  cases blocks with
  | nil => rfl
  | cons first rest =>
    have hlines (blocks : List Block) :
        (blocks.flatMap fun block => [block, .separator]).flatMap Block.lines =
          (blocks.map Block.lines).flatMap fun group => group ++ [.blank] := by
      rw [List.flatMap_assoc, List.flatMap_map]
      rfl
    exact congrArg (Line.blank :: ·) (hlines (first :: rest))

/-! ### Blocks without lines -/

lemma Block.isEmpty_declare (gap : String) (block : Block) (registry : Registry) :
    (block.declare gap registry).1.isEmpty = block.isEmpty := by
  rcases declare_cases gap block registry with ⟨-, he⟩ | ⟨frame, slot, hp, -, he⟩
  · rw [he]
  · have hfull : block.isEmpty = false := by
      by_contra hempty
      simp only [isEmpty, Bool.not_eq_false, List.isEmpty_iff] at hempty
      simp [pendingFrame?, hempty] at hp
    rw [he, hfull]
    simp [isEmpty, declarationLines]

lemma countP_isEmpty_declareUsedFrames (gap : String) (blocks : List Block) (registry : Registry) :
    (declareUsedFrames gap blocks registry).1.countP Block.isEmpty =
      blocks.countP Block.isEmpty := by
  induction blocks generalizing registry with
  | nil => rfl
  | cons first rest ih =>
    rw [declareUsedFrames_cons, List.countP_cons, List.countP_cons, ih, Block.isEmpty_declare]

lemma Action.countP_isEmpty_bodyBlocks (gap : String) (frame : FrameId) (handle : String)
    (action : Action) : (action.bodyBlocks gap frame handle).countP Block.isEmpty =
      if action.waits then 1 else 0 := by
  have hcommands :
      (action.bodyCommands.map (Command.block gap frame handle)).countP Block.isEmpty = 0 := by
    apply List.countP_eq_zero.mpr
    intro block hm
    obtain ⟨command, -, rfl⟩ := List.mem_map.mp hm
    exact Bool.false_ne_true
  rw [bodyBlocks, List.countP_append, hcommands]
  split_ifs <;> rfl

theorem countP_isEmpty_translate (gap : String) (events : List Event) :
    (translate gap events).blocks.countP Block.isEmpty = events.countP (·.action.waits) := by
  rw [translate_eq]
  induction events with
  | nil => rfl
  | cons event rest ih =>
    rw [List.flatMap_cons, List.countP_append, Action.countP_isEmpty_bodyBlocks, ih,
      List.countP_cons, Nat.add_comm]

/-! ### The lines of a body -/

section Arranged
variable {options : Options} {gap : String} {blocks : List Block} {frames : Registry}

lemma arrange_eq_separate (h : options.usesSeparators) : options.arrange gap blocks frames =
    separate ({ options with blankLines := false }.arrange gap blocks frames) := by
  have hplain : { options with blankLines := false }.usesSeparators = false := rfl
  simp [Options.arrange, h, hplain]

lemma arrange_of_not_usesSeparators (h : options.usesSeparators = false) :
    options.arrange gap blocks frames =
      if options.declareFrames && !frames.isEmpty then (declareUsedFrames gap blocks frames).1
      else blocks := by
  simp [Options.arrange, h]

lemma countP_isEmpty_arrange (h : options.usesSeparators = false) :
    (options.arrange gap blocks frames).countP Block.isEmpty = blocks.countP Block.isEmpty := by
  rw [arrange_of_not_usesSeparators h]
  split_ifs
  · exact countP_isEmpty_declareUsedFrames gap blocks frames
  · rfl

lemma not_isStructural_arrange (h : options.usesSeparators = false)
    (hc : ∀ b ∈ blocks, b.OfCommands gap) :
    ∀ block ∈ options.arrange gap blocks frames, ∀ line ∈ block.lines, ¬ line.isStructural := by
  have hplain : ∀ b ∈ blocks, ∀ line ∈ b.lines, ¬ line.isStructural := by
    intro b hb line hl
    obtain ⟨commands, -, he⟩ := hc b hb
    rw [he] at hl
    obtain ⟨command, -, rfl⟩ := List.mem_map.mp hl
    exact Bool.false_ne_true
  intro block hm
  rw [arrange_of_not_usesSeparators h] at hm
  split_ifs at hm
  · rcases mem_declareUsedFrames hc hm with hm | ⟨b, hb, slot, -, -, rfl⟩
    · exact hplain block hm
    · exact Block.forall_lines_declared.mpr
        ⟨Bool.false_ne_true, Bool.false_ne_true, hplain b hb⟩
  · exact hplain block hm

end Arranged

/-- With separators, one stands before, between and after the groups of lines, and two follow each other only
where an event waits. -/
theorem spaces_doubled_at_waits (gap : String) (options : Options) (h : options.usesSeparators)
    (events : List Event) :
    let translation := translate gap events
    let lines := (options.arrange gap translation.blocks translation.frames).flatMap Block.lines
    let groups := ({ options with blankLines := false }.arrange gap translation.blocks
      translation.frames).map Block.lines
    lines = spaced groups ∧
    (∀ group ∈ groups, ∀ line ∈ group, ¬ line.isStructural) ∧
    groups.countP List.isEmpty = events.countP (·.action.waits) ∧
    doubledSpaces lines = events.countP (·.action.waits) ∧
    (SingleSpaced lines ↔ ∀ event ∈ events, ¬ event.action.waits) ∧
    (lines = spaced (groups.filter (!·.isEmpty)) ↔ ∀ event ∈ events, ¬ event.action.waits) := by
  intro translation lines groups
  have hc : ∀ b ∈ translation.blocks, b.OfCommands gap := fun _ => ofCommands_translate
  have hlines : lines = spaced groups := by
    unfold lines
    rw [arrange_eq_separate h, lines_separate]
  have hplain : ∀ group ∈ groups, ∀ line ∈ group, ¬ line.isStructural := by
    intro group hm
    obtain ⟨block, hb, rfl⟩ := List.mem_map.mp hm
    exact not_isStructural_arrange rfl hc block hb
  have hwaits : groups.countP List.isEmpty = events.countP (·.action.waits) := by
    rw [List.countP_map, ← countP_isEmpty_translate gap events]
    exact countP_isEmpty_arrange rfl
  have hdoubled : doubledSpaces lines = events.countP (·.action.waits) := by
    rw [hlines, doubledSpaces_spaced hplain, hwaits]
  have hnone : doubledSpaces lines = 0 ↔ ∀ event ∈ events, ¬ event.action.waits := by
    rw [hdoubled, List.countP_eq_zero]
  refine ⟨hlines, hplain, hwaits, hdoubled, singleSpaced_iff.trans hnone, ?_⟩
  constructor
  · intro hfull
    apply hnone.mp
    rw [hfull, doubledSpaces_spaced fun group hm => hplain group (List.mem_of_mem_filter hm)]
    simp [List.countP_filter]
  · intro hnever
    have hkept : groups.filter (!·.isEmpty) = groups := by
      apply List.filter_eq_self.mpr
      have hempty := hwaits.trans (List.countP_eq_zero.mpr hnever)
      intro group hm
      simpa using List.countP_eq_zero.mp hempty group hm
    rw [hkept, hlines]

theorem spaces_doubled_at_two_waits :
    let options : Options := { blankLineStyle := .separators }
    let events : List Event := [⟨.click (some "#a"), some 12, some "/f"⟩,
      .onMainPage (.navigation (some "/b")), ⟨.navigation none, some 12, none⟩]
    let translation := translate "undefined" events
    let lines := (options.arrange "undefined" translation.blocks translation.frames).flatMap Block.lines
    options.usesSeparators ∧ lines.length = 11 ∧ doubledSpaces lines = 2 ∧ ¬ SingleSpaced lines := by
  intro options events translation lines
  obtain ⟨-, -, -, hdoubled, hsingle, -⟩ := spaces_doubled_at_waits "undefined" options rfl events
  refine ⟨rfl, by decide, hdoubled, ?_⟩
  intro hspaced
  exact hsingle.mp hspaced (.onMainPage (.navigation (some "/b"))) (by simp [events]) rfl

/-- Before the only line of a lone navigation stand two separators and not one. -/
theorem separators_twice_before_visit :
    let options : Options := { blankLineStyle := .separators }
    let translation := translate "undefined" [.onMainPage (.navigation (some "/a"))]
    let lines := (options.arrange "undefined" translation.blocks translation.frames).flatMap Block.lines
    options.usesSeparators ∧ lines.map Line.text = ["", "", "cy.visit('/a')", ""] ∧
    lines.map Line.isStructural = [true, true, false, true] ∧ ¬ SingleSpaced lines := by
  intro options translation lines
  refine ⟨rfl, by decide +kernel, by decide +kernel, ?_⟩
  rw [singleSpaced_iff]
  decide +kernel

end Retrace
