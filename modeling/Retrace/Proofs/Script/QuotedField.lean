import Retrace.Proofs.Completeness
import Retrace.Proofs.Layout.Legible
import Retrace.Proofs.Script.SingleQuoted
import Retrace.Proofs.TranslationAppend

/-! Fields between quotes. A command writes a field as it is between single quotes, so the literal in the
test means the field where the field is plain, and nowhere else. -/
namespace Retrace

/-- A part of the text of a command: what every such command says, or a field between quotes. -/
inductive Piece where
  | code (text : String)
  | quoted (field : String)

namespace Piece

def text : Piece → String
  | code text => text
  | quoted field => "'" ++ field ++ "'"

def write (pieces : List Piece) : String := String.join (pieces.map text)

@[simp] lemma write_nil : write [] = "" := rfl

@[simp] lemma write_cons (piece : Piece) (rest : List Piece) :
    write (piece :: rest) = piece.text ++ write rest := by
  simp [write]

@[simp] lemma write_append (pieces more : List Piece) :
    write (pieces ++ more) = write pieces ++ write more := by
  simp [write]

end Piece

namespace Command
open Piece (code quoted)

/-- A field as a command quotes it. -/
def piece (gap : String) (field : Option String) : Piece := quoted (field.getD gap)

/-- The pieces of a call on what a selector finds. -/
def onElementPieces (gap handle : String) (selector : Option String) (call : List Piece) :
    List Piece :=
  code (handle ++ ".get(") :: piece gap selector :: code ")." :: call

/-- The text of a command in pieces, with every field that it quotes. -/
def pieces (gap handle : String) : Command → List Piece
  | click selector => onElementPieces gap handle selector [code "click()"]
  | select selector value =>
    onElementPieces gap handle selector [code "select(", piece gap value, code ")"]
  | check selector value =>
    onElementPieces gap handle selector [code "check(", piece gap value, code ")"]
  | type selector value =>
    onElementPieces gap handle selector [code "type(", piece gap value, code ")"]
  | visit href => [code (handle ++ ".visit("), piece gap href, code ")"]
  | setCookie name value options =>
    [code (handle ++ ".setCookie("), piece gap name, code ", ", piece gap value,
      code (", " ++ (Json.Value.object options).compact ++ ")")]
  | setItem name value =>
    [code "window.localStorage.setItem(", piece gap name, code ", ", piece gap value, code ")"]
  | findFrame frame url =>
    [code ("const " ++ frameName frame ++ " = frames.find(f => f.url() === "), piece gap url, code ")"]
  | command => [code (command.text gap handle)]

theorem write_pieces (gap handle : String) (command : Command) :
    Piece.write (command.pieces gap handle) = command.text gap handle := by
  unfold pieces
  split
  case h_9 => simp [Piece.text]
  all_goals
    unfold text
    simp only [onElementPieces, piece, Piece.write_cons, Piece.write_nil, Piece.text, onElement,
      literal, String.append_assoc, String.append_empty, -String.reduceAppend]

lemma text_of_quoted {gap handle field : String} {command : Command} {before after : List Piece}
    (h : command.pieces gap handle = before ++ quoted field :: after) :
    command.text gap handle = Piece.write before ++ ("'" ++ field ++ "'" ++ Piece.write after) := by
  rw [← write_pieces, h, Piece.write_append, Piece.write_cons]
  rfl

/-- The fields that a command quotes. -/
def quotes : Command → List (Option String)
  | click selector => [selector]
  | select selector value | check selector value | type selector value => [selector, value]
  | visit href => [href]
  | setCookie name value _ | setItem name value => [name, value]
  | findFrame _ url => [url]
  | viewport .. | clearCookies | declareFrames => []

lemma quoted_mem_pieces {gap handle field : String} {command : Command} :
    quoted field ∈ command.pieces gap handle ↔ ∃ given ∈ command.quotes, given.getD gap = field := by
  cases command <;> simp [pieces, onElementPieces, quotes, piece, eq_comm]

lemma isSome_of_mem_quotes {command : Command} (h : command.isComplete) :
    ∀ given ∈ command.quotes, given.isSome := by
  cases command with
  | viewport | clearCookies | declareFrames => exact fun given hg => absurd hg List.not_mem_nil
  | _ => simpa [quotes, isComplete] using h

lemma some_mem_quotes {command : Command} (h : command.isComplete) {gap handle field : String}
    (hf : quoted field ∈ command.pieces gap handle) : some field ∈ command.quotes := by
  obtain ⟨given, hg, rfl⟩ := quoted_mem_pieces.mp hf
  obtain ⟨text, rfl⟩ := Option.isSome_iff_exists.mp (isSome_of_mem_quotes h given hg)
  exact hg

end Command

/-! ### Texts of a recording -/

/-- The texts of an action that its commands quote. -/
def Action.texts : Action → List String
  | click selector => selector.toList
  | change selector value _ _ => selector.toList ++ value.toList
  | visit href | navigation href => href.toList
  | cookie cookies => (cookies.getD []).flatMap fun c => c.name.toList ++ c.value.toList
  | storage entries => (entries.getD []).flatMap fun e => e.name.toList ++ e.value.toList
  | keydown .. | viewport _ | unknown => []

/-- The texts of an event that a test may quote. -/
def Event.texts (event : Event) : List String := event.action.texts ++ event.frameUrl.toList

lemma Action.mem_texts {action : Action} {command : Command}
    (h : command ∈ action.bodyCommands ++ action.setupCommands) {field : String}
    (hf : some field ∈ command.quotes) : field ∈ action.texts := by
  rcases List.mem_append.mp h with h | h
  · cases issues_of_mem_bodyCommands h with
    | viewport size => exact absurd hf List.not_mem_nil
    | storage he =>
      refine List.mem_flatMap.mpr ⟨_, he, ?_⟩
      simpa [Command.quotes, eq_comm] using hf
    | _ => simpa [texts, Command.quotes, eq_comm] using hf
  · cases action with
    | cookie cookies =>
      rcases List.mem_cons.mp h with rfl | h
      · exact absurd hf List.not_mem_nil
      · obtain ⟨cookie, hc, rfl⟩ := List.mem_map.mp h
        refine List.mem_flatMap.mpr ⟨cookie, hc, ?_⟩
        simpa [Command.quotes, eq_comm] using hf
    | _ => cases h

/-- A line of a command that quotes texts of a recording and nothing else. -/
def Line.QuotesFrom (gap : String) (events : List Event) (line : Line) : Prop :=
  ∃ (frame : FrameId) (command : Command), line = command.line gap frame ∧
    ∀ field, Piece.quoted field ∈ command.pieces gap (handleOf frame) →
      ∃ event ∈ events, field ∈ event.texts

lemma Event.quotesFrom_line {gap : String} {events : List Event} {event : Event} (h : event ∈ events)
    (herrors : event.findings.errors = []) {command : Command}
    (hc : command ∈ event.action.bodyCommands ++ event.action.setupCommands) :
    (command.line gap event.frame).QuotesFrom gap events := by
  refine ⟨event.frame, command, rfl, ?_⟩
  intro field hf
  have hcomplete := Action.isComplete_of_errors (List.append_eq_nil_iff.mp herrors).2 command hc
  have htext := Action.mem_texts hc (Command.some_mem_quotes hcomplete hf)
  exact ⟨event, h, List.mem_append_left _ htext⟩

lemma quotesFrom_fetch (gap : String) (events : List Event) (frame : FrameId) :
    (Line.fetch gap frame).QuotesFrom gap events :=
  ⟨frame, .declareFrames, rfl, by simp [Command.pieces]⟩

lemma quotesFrom_lookup {gap : String} {events : List Event} {frame : FrameId} {url : String}
    (hmain : frame ≠ mainFrame)
    (h : (translate gap events).frames.slot? frame = some (some url)) :
    (Line.lookup gap frame (some url)).QuotesFrom gap events := by
  refine ⟨frame, .findFrame frame (some url), rfl, ?_⟩
  intro field hf
  rw [slot?_frames_translate gap events hmain] at h
  obtain ⟨event, he, hurl⟩ := Option.map_eq_some_iff.mp h
  obtain rfl : field = url := by
    simpa [Command.quotes] using Command.some_mem_quotes rfl hf
  refine ⟨event, List.mem_of_find?_eq_some he, List.mem_append_right _ ?_⟩
  rw [hurl]
  exact List.mem_singleton_self field

theorem quotesFrom_of_errors {gap : String} {options : Options} {events : List Event}
    (h : ∀ event ∈ events, event.findings.errors = []) :
    let translation := translate gap events
    let blocks := options.arrange gap translation.blocks translation.frames
    ∀ line ∈ (blocks ++ translation.setup).flatMap Block.lines,
      line.isStructural ∨ line.QuotesFrom gap events := by
  intro translation blocks line hl
  have hc : ∀ b ∈ translation.blocks, b.OfCommands gap := fun _ => ofCommands_translate
  have hbody : ∀ b ∈ translation.blocks, ∀ l ∈ b.lines, l.QuotesFrom gap events := by
    intro b hb l hl
    have hm : l ∈ translation.blocks.flatMap Block.lines := List.mem_flatMap.mpr ⟨b, hb, hl⟩
    rw [bodyLines_translate] at hm
    obtain ⟨event, he, hm⟩ := List.mem_flatMap.mp hm
    obtain ⟨command, hcommand, rfl⟩ := List.mem_map.mp hm
    exact Event.quotesFrom_line he (h event he) (List.mem_append_left _ hcommand)
  rcases List.mem_append.mp (List.flatMap_append ▸ hl) with hl | hl
  · refine Options.forall_lines_arrange_of_commands (p := fun l => l.isStructural ∨ l.QuotesFrom gap events)
      hc (.inl rfl) (fun b hb l hl => .inr (hbody b hb l hl)) ?_ line hl
    intro b hb hu slot hs
    obtain ⟨url, rfl⟩ := (hasUrls_frames h gap).slot hs
    have hmain := ((hc b hb).frame_of_uses hu).2
    exact ⟨.inr (quotesFrom_fetch gap events _), .inr (quotesFrom_lookup hmain hs)⟩
  · rw [setupLines_translate] at hl
    obtain ⟨event, he, hm⟩ := List.mem_flatMap.mp hl
    obtain ⟨command, hcommand, rfl⟩ := List.mem_map.mp hm
    exact .inr (Event.quotesFrom_line he (h event he) (List.mem_append_right _ hcommand))

/-! ### Literals -/

section Literals
open SingleQuoted (Plain valueOf)

/-- A field between quotes, with what a command says behind it. -/
def Piece.literal (field : String) (after : List Piece) : List Char :=
  ("'" ++ field ++ "'" ++ write after).toList

lemma read_literal_iff (strict : Bool) (field : String) (after : List Piece) (more : List Char) :
    SingleQuoted.read strict (Piece.literal field after ++ more) =
      some (valueOf field.toList, (Piece.write after).toList ++ more) ↔ Plain field.toList := by
  rw [← SingleQuoted.read_quoted_iff strict field.toList ((Piece.write after).toList ++ more)]
  simp [Piece.literal]

/-- The literal that a command writes for a field means the field, and ends where it should, exactly where the
field is plain. -/
theorem literal_means_field_iff_plain (strict : Bool) :
    (∀ (command : Command) (gap handle field : String) (before after : List Piece),
      command.pieces gap handle = before ++ .quoted field :: after →
      (command.text gap handle).toList = (Piece.write before).toList ++ Piece.literal field after ∧
      ∀ more, SingleQuoted.read strict (Piece.literal field after ++ more) =
        some (valueOf field.toList, (Piece.write after).toList ++ more) ↔ Plain field.toList) ∧
    ∀ (generator : Generator) (events : List Event),
      let gap := generator.gap
      let translation := translate gap events
      let blocks := generator.options.arrange gap translation.blocks translation.frames
      let lines := (blocks ++ translation.setup).flatMap Block.lines
      (∀ (frame : FrameId) (command : Command), command.line gap frame ∈ lines →
        ∀ (field : String) (before after : List Piece),
          command.pieces gap (handleOf frame) = before ++ .quoted field :: after →
          ∃ start more, (generator.test events).toList = start ++ (Piece.literal field after ++ more) ∧
            (SingleQuoted.read strict ((generator.test events).toList.drop start.length) =
              some (valueOf field.toList, (Piece.write after).toList ++ more) ↔
              Plain field.toList)) ∧
      ∀ code, generator.checkedTest events = .ok code → code = generator.test events ∧
        ∀ line ∈ lines, line.isStructural ∨ ∃ (frame : FrameId) (command : Command),
          line = command.line gap frame ∧
          ∀ field, Piece.quoted field ∈ command.pieces gap (handleOf frame) →
            ∃ event ∈ events, field ∈ event.texts := by
  refine ⟨?_, ?_⟩
  · intro command gap handle field before after h
    rw [Command.text_of_quoted h, String.toList_append]
    exact ⟨rfl, read_literal_iff strict field after⟩
  · intro generator events gap translation blocks lines
    refine ⟨?_, ?_⟩
    · intro frame command hl field before after h
      obtain ⟨head, tail, hcode⟩ := Layout.infix_test_of_mem generator.options hl
      have hsplit : (generator.test events).toList =
          (head ++ (Piece.write before).toList) ++ (Piece.literal field after ++ tail) := by
        refine hcode.symm.trans ?_
        simp [Command.line, Block.stamp, Command.text_of_quoted h, Piece.literal]
      refine ⟨_, tail, hsplit, ?_⟩
      rw [hsplit, List.drop_left]
      exact read_literal_iff strict field after tail
    · intro code hcode
      obtain ⟨-, herrors, rfl⟩ := Generator.checkedTest_eq_ok.mp hcode
      exact ⟨rfl, quotesFrom_of_errors herrors⟩

theorem literal_means_plain_url :
    let events : List Event := [⟨.click (some "[name=\"q\"]"), some 7, some "/a?b=\"c\""⟩]
    let generator : Generator := { options := {} }
    generator.checkedTest events = .ok (generator.test events) ∧
    ∃ start more, (generator.test events).toList =
        start ++ (Piece.literal "/a?b=\"c\"" [.code ")"] ++ more) ∧
      SingleQuoted.read true ((generator.test events).toList.drop start.length) =
        some (valueOf "/a?b=\"c\"".toList, [')'] ++ more) := by
  intro events generator
  have hchecked : generator.checkedTest events = .ok (generator.test events) := by
    refine Generator.checkedTest_eq_ok.mpr ⟨by decide, ?_, rfl⟩
    simp [events, Event.findings, Event.frameErrors, Event.frame, Action.errors, require]
  refine ⟨hchecked, ?_⟩
  obtain ⟨hlines, -⟩ := (literal_means_field_iff_plain true).2 generator events
  obtain ⟨start, more, hcode, hread⟩ := hlines 7 (.findFrame 7 (some "/a?b=\"c\"")) (by decide +kernel)
    "/a?b=\"c\"" [_] [.code ")"] rfl
  exact ⟨start, more, hcode, hread.mpr (by decide)⟩

/-- A selector with quotes of its own ends its literal early, though the recording has no error. -/
theorem literal_of_quoted_attribute :
    let selector := "input[name='q']"
    let events : List Event := [.onMainPage (.click (some selector))]
    let generator : Generator := { options := {} }
    let code := (Command.click (some selector)).text generator.gap mainHandle
    generator.checkedTest events = .ok (generator.test events) ∧
    code = "cy.get('input[name='q']').click()" ∧ code.toList <:+: (generator.test events).toList ∧
    ∀ strict, SingleQuoted.read strict (code.toList.drop "cy.get(".length) =
        some (valueOf "input[name=".toList, "q']').click()".toList) ∧
      SingleQuoted.read strict (code.toList.drop "cy.get(".length) ≠
        some (valueOf selector.toList, ").click()".toList) := by
  intro selector events generator code
  have hchecked : generator.checkedTest events = .ok (generator.test events) := by
    refine Generator.checkedTest_eq_ok.mpr ⟨by decide, ?_, rfl⟩
    simp [events, Event.onMainPage, Event.findings, Event.frameErrors, Event.frame, Action.errors,
      require]
  refine ⟨hchecked, rfl, ?_, ?_⟩
  · change ((Command.click (some selector)).line generator.gap mainFrame).text.toList <:+: _
    exact Layout.infix_test_of_mem generator.options (by decide +kernel)
  · intro strict
    have hdrop : code.toList.drop "cy.get(".length =
        '\'' :: ("input[name=".toList ++ '\'' :: "q']').click()".toList) := by decide
    have hread : SingleQuoted.read strict (code.toList.drop "cy.get(".length) =
        some (valueOf "input[name=".toList, "q']').click()".toList) := by
      rw [hdrop]
      exact SingleQuoted.readBody_plain strict (by decide) _
    refine ⟨hread, ?_⟩
    rw [hread]
    decide

end Literals
end Retrace
