import Retrace.Proofs.CheckedTest
import Retrace.Proofs.CommandLine.Texts
import Retrace.Proofs.CommandLine.Words
import Retrace.Proofs.Recording.RoundTrip

/-! A run of the command line as the library sees it. The stages stand in an order: all of them pass and the
output is the test, or one is the first to fail. -/
namespace Retrace.CommandLine
variable {σ : Type} {surroundings : Surroundings (StateM σ)} {arguments : Arguments} {world : σ}

/-- The file of the recording; none where it is read from the standard input. -/
def Arguments.source (arguments : Arguments) : Option String :=
  arguments.file.filter (!isInputPath ·)

/-- The text that is read as the recording. -/
def Surroundings.textFor (surroundings : Surroundings (StateM σ)) (arguments : Arguments) (world : σ) :
    Except FileError String :=
  surroundings.textAt arguments.source world

/-- The log directory is made, if there is to be one, and the log in it is opened, which leads to the world
`ready`. -/
def Logs (surroundings : Surroundings (StateM σ)) (arguments : Arguments) (world ready : σ) : Prop :=
  match arguments.logDirectory with
  | none => ready = world
  | some directory => ∃ made, surroundings.makeDirectories directory world = (.ok (), made) ∧
      surroundings.openLog directory made = (.ok (), ready)

/-- All stages of a run pass, for a recording of these events. -/
structure Passes (surroundings : Surroundings (StateM σ)) (arguments : Arguments) (world : σ)
    (events : List Event) : Prop where
  recording : ∃ ready content, Logs surroundings arguments world ready ∧
    surroundings.textFor arguments ready = .ok content ∧ Event.readList content = .ok events
  options : arguments.strict → arguments.options.findings.isValid
  events : arguments.strict → ∀ event ∈ events, event.findings.isValid

/-- The first stage of a run that fails, with what is wrong there. -/
inductive FailsFirst (surroundings : Surroundings (StateM σ)) (arguments : Arguments) (world : σ) :
    Failure → Prop
  | logDirectory {directory : String} {error : FileError} {made : σ}
    (hd : arguments.logDirectory = some directory)
    (hm : surroundings.makeDirectories directory world = (.error error, made)) :
    FailsFirst surroundings arguments world (.logDirectory error)
  | logFile {directory report : String} {made opened : σ}
    (hd : arguments.logDirectory = some directory)
    (hm : surroundings.makeDirectories directory world = (.ok (), made))
    (hl : surroundings.openLog directory made = (.error report, opened)) :
    FailsFirst surroundings arguments world (.logFile report)
  | reading {ready : σ} {error : FileError} (hl : Logs surroundings arguments world ready)
    (ht : surroundings.textFor arguments ready = .error error) :
    FailsFirst surroundings arguments world (.input (arguments.source.getD "stdin") error)
  | parsing {ready : σ} {content : String} {report : Json.Report}
    (hl : Logs surroundings arguments world ready)
    (ht : surroundings.textFor arguments ready = .ok content)
    (hp : Event.readList content = .error report) :
    FailsFirst surroundings arguments world (.recording report)
  | options {ready : σ} {content : String} {events : List Event} {error : Finding}
    {others : List Finding} (hl : Logs surroundings arguments world ready)
    (ht : surroundings.textFor arguments ready = .ok content)
    (hp : Event.readList content = .ok events) (hs : arguments.strict)
    (ho : arguments.options.findings.errors = error :: others) :
    FailsFirst surroundings arguments world (.refusal (.options ⟨error⟩))
  | event {ready : σ} {content : String} {before after : List Event} {event : Event}
    {error : Finding} {others : List Finding} (hl : Logs surroundings arguments world ready)
    (ht : surroundings.textFor arguments ready = .ok content)
    (hp : Event.readList content = .ok (before ++ event :: after)) (hs : arguments.strict)
    (ho : arguments.options.findings.isValid) (hb : ∀ e ∈ before, e.findings.isValid)
    (he : event.findings.errors = error :: others) :
    FailsFirst surroundings arguments world (.refusal (.event before.length error))

/-! ### What one stage does -/

/-- The outcome of a run that has come to its text. -/
def Outcome.ofTest : Except Failure String → Outcome
  | .ok test => .success test
  | .error failure => .failed failure

lemma generate_of_unprepared {failure : Failure} {left : σ}
    (h : prepareLog surroundings arguments.logDirectory world = (.error failure, left)) :
    (generate surroundings arguments world).1 = .failed failure := by
  simp only [generate, bind, StateT.bind, h]
  rfl

lemma fst_readContent (surroundings : Surroundings (StateM σ)) (arguments : Arguments) (world : σ) :
    (readContent surroundings arguments.file world).1 =
      (surroundings.textFor arguments world).mapError
        (.input (arguments.source.getD "stdin")) := by
  unfold readContent Surroundings.textFor Surroundings.textAt Arguments.source
  cases arguments.file.filter (!isInputPath ·) <;> rfl

lemma generate_of_prepared {ready : σ}
    (h : prepareLog surroundings arguments.logDirectory world = (.ok (), ready)) :
    (generate surroundings arguments world).1 =
      match surroundings.textFor arguments ready with
      | .ok content => .ofTest (testOf arguments content)
      | .error error => .failed (.input (arguments.source.getD "stdin") error) := by
  have hread := fst_readContent surroundings arguments ready
  simp only [generate, bind, StateT.bind, h]
  rcases hr : readContent surroundings arguments.file ready with ⟨read, left⟩
  rw [hr] at hread
  subst hread
  cases surroundings.textFor arguments ready with
  | error error => rfl
  | ok content =>
    simp only [Except.mapError]
    cases testOf arguments content <;> rfl

lemma prepareLog_of_logs {ready : σ} (h : Logs surroundings arguments world ready) :
    prepareLog surroundings arguments.logDirectory world = (.ok (), ready) := by
  unfold Logs at h
  unfold prepareLog
  split at h
  · subst h
    simp only [*]
    rfl
  · obtain ⟨made, hm, hl⟩ := h
    simp only [*, bind, StateT.bind]
    rfl

lemma logs_or_fails (surroundings : Surroundings (StateM σ)) (arguments : Arguments) (world : σ) :
    (∃ ready, Logs surroundings arguments world ready) ∨
      ∃ failure, FailsFirst surroundings arguments world failure := by
  cases hd : arguments.logDirectory with
  | none => exact .inl ⟨world, by simp [Logs, hd]⟩
  | some directory =>
    rcases hm : surroundings.makeDirectories directory world with ⟨error | _, made⟩
    · exact .inr ⟨_, .logDirectory hd hm⟩
    · rcases hl : surroundings.openLog directory made with ⟨report | _, opened⟩
      · exact .inr ⟨_, .logFile hd hm hl⟩
      · refine .inl ⟨opened, ?_⟩
        simp only [Logs, hd]
        exact ⟨made, hm, hl⟩

lemma testOf_of_parsing {content : String} {report : Json.Report}
    (h : Event.readList content = .error report) :
    testOf arguments content = .error (.recording report) := by
  simp only [testOf, h]
  rfl

section Events
variable {content : String} {events : List Event} (h : Event.readList content = .ok events)
include h

lemma testOf_of_strict (hs : arguments.strict) : testOf arguments content =
    (Generator.checkedTest { options := arguments.options } events).mapError .refusal := by
  simp only [testOf, h, bind, Except.bind, Except.mapError, if_pos hs]

lemma testOf_of_not_strict (hs : ¬ arguments.strict) :
    testOf arguments content = .ok (Generator.test { options := arguments.options } events) := by
  simp only [testOf, h, bind, Except.bind, Except.mapError, if_neg hs]
  rfl

end Events

section Options
variable {options : Options} {events : List Event}

lemma checkedTest_of_options_error {error : Finding} {others : List Finding}
    (h : options.findings.errors = error :: others) :
    Generator.checkedTest { options := options } events = .error (.options ⟨error⟩) := by
  apply Generator.checkedTest_of_option_error
  exact h

lemma checkedTest_of_options_valid (h : options.findings.isValid) :
    Generator.checkedTest { options := options } events =
      match Generator.firstError? events with
      | some (index, finding) => .error (.event index finding)
      | none => .ok (Generator.test { options := options } events) := by
  apply Generator.checkedTest_of_valid_options
  exact h

end Options

/-! ### The whole run -/

theorem generate_of_passes {events : List Event}
    (h : Passes surroundings arguments world events) :
    (generate surroundings arguments world).1 =
      .success (Generator.test { options := arguments.options } events) := by
  obtain ⟨⟨ready, content, hl, ht, hp⟩, hoptions, hevents⟩ := h
  simp only [generate_of_prepared (prepareLog_of_logs hl), ht]
  by_cases hs : arguments.strict
  · have hchecked : Generator.checkedTest { options := arguments.options } events =
        .ok (Generator.test { options := arguments.options } events) := by
      refine Generator.checkedTest_eq_ok.mpr ⟨Options.check_eq_ok (hoptions hs), ?_, rfl⟩
      exact fun event he => Findings.isValid_iff.mp (hevents hs event he)
    rw [testOf_of_strict hp hs, hchecked]
    rfl
  · rw [testOf_of_not_strict hp hs]
    rfl

theorem generate_of_failsFirst {failure : Failure}
    (h : FailsFirst surroundings arguments world failure) :
    (generate surroundings arguments world).1 = .failed failure := by
  cases h with
  | @logDirectory directory error made hd hm =>
    apply generate_of_unprepared
    simp only [prepareLog, hd, bind, StateT.bind, hm]
    rfl
  | @logFile directory report made opened hd hm hl =>
    apply generate_of_unprepared
    simp only [prepareLog, hd, bind, StateT.bind, hm, hl]
    rfl
  | reading hl ht => simp only [generate_of_prepared (prepareLog_of_logs hl), ht]
  | parsing hl ht hp =>
    simp only [generate_of_prepared (prepareLog_of_logs hl), ht, testOf_of_parsing hp]
    rfl
  | options hl ht hp hs ho =>
    simp only [generate_of_prepared (prepareLog_of_logs hl), ht, testOf_of_strict hp hs,
      checkedTest_of_options_error ho]
    rfl
  | @event ready content before after event error others hl ht hp hs ho hb he =>
    have hfirst := Generator.firstError?_eq_some hb he after
    simp only [generate_of_prepared (prepareLog_of_logs hl), ht, testOf_of_strict hp hs,
      checkedTest_of_options_valid ho, hfirst]
    rfl

theorem passes_or_failsFirst (surroundings : Surroundings (StateM σ)) (arguments : Arguments)
    (world : σ) : (∃ events, Passes surroundings arguments world events) ∨
      ∃ failure, FailsFirst surroundings arguments world failure := by
  rcases logs_or_fails surroundings arguments world with ⟨ready, hl⟩ | hf
  · cases ht : surroundings.textFor arguments ready with
    | error error => exact .inr ⟨_, .reading hl ht⟩
    | ok content =>
      cases hp : Event.readList content with
      | error report => exact .inr ⟨_, .parsing hl ht hp⟩
      | ok events =>
        by_cases hs : arguments.strict
        · cases ho : arguments.options.findings.errors with
          | cons error others => exact .inr ⟨_, .options hl ht hp hs ho⟩
          | nil =>
            have hvalid := Findings.isValid_iff.mpr ho
            rcases Event.valid_or_first_invalid events with
              he | ⟨before, event, after, error, others, rfl, hb, he⟩
            · exact .inl ⟨events, ⟨ready, content, hl, ht, hp⟩, fun _ => hvalid, fun _ => he⟩
            · exact .inr ⟨_, .event hl ht hp hs hvalid hb he⟩
        · exact .inl ⟨events, ⟨ready, content, hl, ht, hp⟩, fun h => absurd h hs, fun h => absurd h hs⟩
  · exact .inr hf

/-! ### Settings that leave the output alone -/

/-- What is wrong with directories, the log or the input, rather than with what is read. -/
def Failure.isOfSystem : Failure → Bool
  | .logDirectory _ | .logFile _ | .input .. => true
  | .recording _ | .refusal _ => false

section KeepsTexts
variable {Place : Type} {place? : Option String → Option Place} {text? : σ → Place → Option String}

lemma leavesText_of_logs (h : surroundings.KeepsTexts place? text?) {ready : σ}
    (hl : Logs surroundings arguments world ready) (place : Place) :
    Surroundings.LeavesText (text? world place) (text? ready place) := by
  unfold Logs at hl
  split at hl
  · subst hl
    exact fun content hc => .inl hc
  · rename_i directory hd
    obtain ⟨made, hm, hl⟩ := hl
    have hreaches := Surroundings.reaches_makeDirectories
      (.here : surroundings.Reaches world world) directory
    rw [hm] at hreaches
    have hlog := h.log directory made place
    rwa [hl, h.text?_of_reaches hreaches] at hlog

lemma content_eq (h : surroundings.KeepsTexts place? text?) {others : Arguments} {ready ready' : σ}
    {content content' : String} (hl : Logs surroundings arguments world ready)
    (hl' : Logs surroundings others world ready')
    (ht : surroundings.textFor arguments ready = .ok content)
    (ht' : surroundings.textFor others ready' = .ok content')
    (hs : others.source = arguments.source) : content' = content := by
  obtain ⟨place, hp, hc⟩ := h.read ht
  obtain ⟨place', hp', hc'⟩ := h.read ht'
  rw [hs, hp] at hp'
  obtain rfl := Option.some.inj hp'
  -- Each text is the one from before the log or a new one, and a place is not both taken and free.
  rcases leavesText_of_logs h hl place content hc with hw | ⟨hw, rfl⟩ <;>
    rcases leavesText_of_logs h hl' place content' hc' with hw' | ⟨hw', rfl⟩
  · exact Option.some.inj (hw'.symm.trans hw)
  · cases hw.symm.trans hw'
  · cases hw.symm.trans hw'
  · rfl

/-- With another log directory the stages of a run pass as before, unless the log or the input fails. -/
theorem Passes.of_other_log (h : surroundings.KeepsTexts place? text?) {events : List Event}
    (hp : Passes surroundings arguments world events) (directory : Option String) :
    let others := { arguments with logDirectory := directory }
    Passes surroundings others world events ∨
      ∃ failure, failure.isOfSystem ∧ FailsFirst surroundings others world failure := by
  intro others
  obtain ⟨⟨ready, content, hl, ht, hread⟩, hoptions, hevents⟩ := hp
  have hcontent {ready' : σ} {content' : String} (hl' : Logs surroundings others world ready')
      (ht' : surroundings.textFor others ready' = .ok content') :
      Event.readList content' = .ok events := by
    rw [content_eq h hl hl' ht ht' rfl, hread]
  rcases passes_or_failsFirst surroundings others world with ⟨events', hp'⟩ | ⟨failure, hf⟩
  · obtain ⟨ready', content', hl', ht', hread'⟩ := hp'.recording
    obtain rfl : events' = events := Except.ok.inj (hread'.symm.trans (hcontent hl' ht'))
    exact .inl hp'
  · refine .inr ⟨failure, ?_, hf⟩
    -- What is read passed its stages before, so only the stages before it can fail.
    cases hf with
    | logDirectory | logFile | reading => rfl
    | parsing hl' ht' hread' => cases hread'.symm.trans (hcontent hl' ht')
    | @options _ _ _ error others' hl' ht' hread' hs ho =>
      have hnil := Findings.isValid_iff.mp (hoptions hs)
      exact absurd (hnil.symm.trans ho) (List.cons_ne_nil error others').symm
    | @event _ _ before after event error others' hl' ht' hread' hs ho hb he =>
      obtain rfl := Except.ok.inj (hread'.symm.trans (hcontent hl' ht'))
      have hnil := Findings.isValid_iff.mp (hevents hs event (by simp))
      exact absurd (hnil.symm.trans he) (List.cons_ne_nil error others').symm

end KeepsTexts

/-- The arguments with another attribute that a recorder prefers. -/
def Arguments.withDataAttribute (arguments : Arguments) (name : String) : Arguments :=
  { arguments with options := { arguments.options with dataAttribute := name } }

lemma testOf_withDataAttribute (arguments : Arguments) (name content : String) :
    testOf (arguments.withDataAttribute name) content = testOf arguments content ∨
      arguments.strict ∧ ∃ error,
        testOf (arguments.withDataAttribute name) content = .error (.refusal (.options error)) ∨
          testOf arguments content = .error (.refusal (.options error)) := by
  let others := arguments.withDataAttribute name
  change testOf others content = _ ∨ _ ∧ ∃ error, testOf others content = _ ∨ _
  cases hp : Event.readList content with
  | error report => exact .inl ((testOf_of_parsing hp).trans (testOf_of_parsing hp).symm)
  | ok events =>
    -- Only the check of the options can tell two attributes apart.
    have htest : Generator.test { options := others.options } events =
        Generator.test { options := arguments.options } events := rfl
    by_cases hs : arguments.strict
    · have hso : others.strict := hs
      rw [testOf_of_strict hp hs, testOf_of_strict hp hso]
      cases ho : others.options.findings.errors with
      | cons error more =>
        rw [checkedTest_of_options_error ho]
        exact .inr ⟨hs, ⟨error⟩, .inl rfl⟩
      | nil =>
        cases ha : arguments.options.findings.errors with
        | cons error more =>
          rw [checkedTest_of_options_error ha]
          exact .inr ⟨hs, ⟨error⟩, .inr rfl⟩
        | nil =>
          rw [checkedTest_of_options_valid (Findings.isValid_iff.mpr ho),
            checkedTest_of_options_valid (Findings.isValid_iff.mpr ha), htest]
          exact .inl rfl
    · have hso : ¬ others.strict := hs
      rw [testOf_of_not_strict hp hs, testOf_of_not_strict hp hso, htest]
      exact .inl rfl

lemma generate_withDataAttribute (surroundings : Surroundings (StateM σ)) (arguments : Arguments)
    (world : σ) (name : String) :
    let outcome := (generate surroundings arguments world).1
    let other := (generate surroundings (arguments.withDataAttribute name) world).1
    other = outcome ∨ arguments.strict ∧ ∃ error,
      other = .failed (.refusal (.options error)) ∨ outcome = .failed (.refusal (.options error)) := by
  intro outcome other
  rcases hp : prepareLog surroundings arguments.logDirectory world with ⟨failure | _, ready⟩
  · have houtcome : outcome = .failed failure := generate_of_unprepared hp
    have hother : other = .failed failure := generate_of_unprepared hp
    exact .inl (hother.trans houtcome.symm)
  · have houtcome := generate_of_prepared hp
    have hother : other = match surroundings.textFor arguments ready with
      | .ok content => .ofTest (testOf (arguments.withDataAttribute name) content)
      | .error error => .failed (.input (arguments.source.getD "stdin") error) :=
      generate_of_prepared hp
    cases ht : surroundings.textFor arguments ready with
    | error error =>
      simp only [ht] at houtcome hother
      exact .inl (hother.trans houtcome.symm)
    | ok content =>
      simp only [ht] at houtcome hother
      rcases testOf_withDataAttribute arguments name content with h | ⟨hs, error, h | h⟩
      · exact .inl (hother.trans ((congrArg Outcome.ofTest h).trans houtcome.symm))
      · exact .inr ⟨hs, error, .inl (hother.trans (congrArg Outcome.ofTest h))⟩
      · exact .inr ⟨hs, error, .inr (houtcome.trans (congrArg Outcome.ofTest h))⟩

/-! ### A directory that is made and has no room for a log -/

/-- Slashes, to stand behind the name of a directory. -/
def slashes (n : Nat) : String := String.ofList (List.replicate n '/')

@[simp] lemma toList_slashes (n : Nat) : (slashes n).toList = List.replicate n '/' := by
  simp [slashes]

lemma utf8ByteSize_slashes (n : Nat) : (slashes n).utf8ByteSize = n := by
  induction n with
  | zero => rfl
  | succ n ih =>
    have hsucc : slashes (n + 1) = slashes n ++ "/" := by
      rw [← String.toList_inj]
      simp [List.replicate_succ']
    rw [hsucc, String.utf8ByteSize_append, ih]
    rfl

lemma segments_slashes (name : String) (n : Nat) :
    segments (name ++ slashes n) = segments name ++ List.replicate n "" := by
  induction n with
  | zero => simp [segments]
  | succ n ih =>
    have hsplit : (name ++ slashes (n + 1)).toList.splitOn '/' =
        (name ++ slashes n).toList.splitOn '/' ++ [[]] := by
      have hlast := List.splitOn_append_cons_self (a := '/') (name ++ slashes n).toList []
      simpa [List.replicate_succ', ← List.append_assoc] using hlast
    rw [segments, hsplit, List.map_append, ← segments, ih, List.replicate_succ', List.append_assoc]
    rfl

lemma startsWith_append {name : String} (h : name ≠ "") (more : String) :
    (name ++ more).startsWith "/" = name.startsWith "/" := by
  obtain ⟨first, rest, hname⟩ := List.exists_cons_of_ne_nil (mt String.toList_eq_nil_iff.mp h)
  rw [Bool.eq_iff_iff, String.startsWith_string_iff, String.startsWith_string_iff,
    String.toList_append, hname]
  simp [List.cons_prefix_cons]

lemma Folder.makeDirectory_slashes (folder : Folder) {name : String} (hn : name ≠ "") {n : Nat}
    (hsize : name.utf8ByteSize + n ≤ maxPathSize) :
    folder.makeDirectory (name ++ slashes n) = folder.makeDirectory name := by
  have hempty : (name ++ slashes n).isEmpty = false := by
    rw [String.isEmpty_eq_false_iff]
    exact fun h => hn (String.append_eq_empty_iff.mp h).1
  have hlong : ¬ maxPathSize < (name ++ slashes n).utf8ByteSize := by
    rw [String.utf8ByteSize_append, utf8ByteSize_slashes]
    omega
  have hshort : ¬ maxPathSize < name.utf8ByteSize := by omega
  have hparts : ((segments name ++ List.replicate n "").reverse.dropWhile String.isEmpty) =
      (segments name).reverse.dropWhile String.isEmpty := by
    rw [List.reverse_append, List.reverse_replicate, List.dropWhile_append_of_pos]
    intro part hp
    rw [List.eq_of_mem_replicate hp]
    rfl
  simp only [makeDirectory, partsOf, hempty, String.isEmpty_eq_false_iff.mpr hn, hlong, hshort,
    startsWith_append hn, segments_slashes, bind, Except.bind, Bool.false_eq_true, if_false, hparts]

lemma Surroundings.makeDirectories_of_makeDirectory {path : String} {made : σ}
    (h : surroundings.makeDirectory path world = (.ok (), made)) :
    surroundings.makeDirectories path world = (.ok (), made) := by
  simp only [makeDirectories, outward, ensureFirst, ensure, bind, StateT.bind, h]
  rfl

lemma Word.ofText_of_letter {text : String} {first : Char} {rest : List Char}
    (h : text.toList = first :: rest) (hf : '-' ≠ first) : ofText text = .value text := by
  unfold ofText
  split <;> simp_all

section Logs
variable {n : Nat}

lemma ofWords_logs : Request.ofWords (fun _ => none) ["--log-dir", "logs" ++ slashes n] =
    .generate ⟨none, {}, false, some ("logs" ++ slashes n)⟩ := by
  have hoption : Word.ofText "--log-dir" = .setting .logDirectory none := rfl
  have htext : ("logs" ++ slashes n).toList = 'l' :: ("ogs" ++ slashes n).toList := by simp
  have hvalue : Word.ofText ("logs" ++ slashes n) = .value ("logs" ++ slashes n) :=
    Word.ofText_of_letter htext (by decide)
  simp [Request.ofWords, Given.readWords, hoption, hvalue, Given.addSetting, Given.path?,
    Given.readWords.orMisuse, Given.arguments, bind, Except.bind]

lemma makeDirectories_logs (openLog : Folder.LogOpener) (h : 4 + n ≤ maxPathSize) :
    (Folder.surroundings openLog).makeDirectories ("logs" ++ slashes n) ⟨[], [], some "[]"⟩ =
      (.ok (), ⟨[], [⟨.here, ["logs"]⟩], some "[]"⟩) := by
  have hparts : Folder.partsOf "logs" = .ok (⟨.here, []⟩, ["logs"]) := by decide +kernel
  have hsize : "logs".utf8ByteSize = 4 := by decide +kernel
  have hmake : Folder.makeDirectory ⟨[], [], some "[]"⟩ "logs" =
      .ok ⟨[], [⟨.here, ["logs"]⟩], some "[]"⟩ := by
    simp only [Folder.makeDirectory, hparts, bind, Except.bind]
    rfl
  apply Surroundings.makeDirectories_of_makeDirectory
  simp only [Folder.surroundings, Folder.makeDirectory_slashes _ (by decide) (hsize ▸ h), hmake]

lemma run_logs (report : String) (h : 4 + n ≤ maxPathSize) :
    Folder.run ⟨[], [], some "[]"⟩ (fun _ => none) ["--log-dir", "logs" ++ slashes n]
      (.refusing report) = ⟨1, "", some (.logFile report)⟩ := by
  simp only [Folder.run, run, ofWords_logs]
  exact generate_of_failsFirst (.logFile rfl (makeDirectories_logs _ h) rfl)

end Logs

/-! ### The command line and the library -/

/-- A run with accepted words prints the test of its recording and nothing else, or prints nothing and fails
at the first stage that fails. -/
theorem run_prints_test_or_fails {Place : Type} {place? : Option String → Option Place}
    {text? : σ → Place → Option String} (surroundings : Surroundings (StateM σ))
    (h : surroundings.KeepsTexts place? text?) (environment : String → Option String)
    (words : List String) (world : σ) :
    let outcome := (run surroundings environment words world).1
    (Request.ofWords environment words = .misuse → outcome = ⟨2, "", none⟩) ∧
    ∀ arguments, Request.ofWords environment words = .generate arguments →
      arguments.AreGiven environment words ∧
      (∀ events, Passes surroundings arguments world events →
        outcome = ⟨0, Generator.test { options := arguments.options } events, none⟩) ∧
      ((¬ ∃ events, Passes surroundings arguments world events) →
        ∃ failure, FailsFirst surroundings arguments world failure ∧ outcome = ⟨1, "", some failure⟩) ∧
      (∀ environment' words' directory, Request.ofWords environment' words' =
          .generate { arguments with logDirectory := directory } → outcome.exitCode = 0 →
        let other := (run surroundings environment' words' world).1
        other = outcome ∨ ∃ failure, failure.isOfSystem ∧ other = ⟨1, "", some failure⟩) ∧
      ∀ environment' words' name, Request.ofWords environment' words' =
          .generate (arguments.withDataAttribute name) →
        let other := (run surroundings environment' words' world).1
        other = outcome ∨ arguments.strict ∧ ∃ error,
          other = ⟨1, "", some (.refusal (.options error))⟩ ∨
            outcome = ⟨1, "", some (.refusal (.options error))⟩ := by
  intro outcome
  have hgenerate {environment : String → Option String} {words : List String} {arguments : Arguments}
      (ha : Request.ofWords environment words = .generate arguments) :
      (run surroundings environment words world).1 = (generate surroundings arguments world).1 := by
    simp only [run, ha]
  refine ⟨fun hm => ?_, fun arguments ha => ?_⟩
  · simp only [outcome, run, hm]
    rfl
  have houtcome : outcome = (generate surroundings arguments world).1 := hgenerate ha
  refine ⟨Request.areGiven_of_ofWords ha, ?_, ?_, ?_, ?_⟩
  · intro events hp
    exact houtcome.trans (generate_of_passes hp)
  · intro hn
    rcases passes_or_failsFirst surroundings arguments world with hp | ⟨failure, hf⟩
    · exact absurd hp hn
    · exact ⟨failure, hf, houtcome.trans (generate_of_failsFirst hf)⟩
  · intro environment' words' directory ha' hexit other
    rcases passes_or_failsFirst surroundings arguments world with ⟨events, hp⟩ | ⟨failure, hf⟩
    · rcases hp.of_other_log h directory with hp' | ⟨failure, hsystem, hf⟩
      · refine .inl ((hgenerate ha').trans ?_)
        rw [generate_of_passes hp', houtcome, generate_of_passes hp]
      · exact .inr ⟨failure, hsystem, (hgenerate ha').trans (generate_of_failsFirst hf)⟩
    · rw [houtcome, generate_of_failsFirst hf] at hexit
      cases hexit
  · intro environment' words' name ha' other
    have hother : other = (generate surroundings (arguments.withDataAttribute name) world).1 :=
      hgenerate ha'
    rw [hother, houtcome]
    exact generate_withDataAttribute surroundings arguments world name

/-- A click in a file, logged in directories that are made; with an attribute of two words it is refused. -/
theorem run_prints_test_or_fails_for_click :
    let folder : Folder :=
      ⟨[(["a.json"], "[\x7b\"action\":\"click\",\"selector\":\"#a\"\x7d]")], [], none⟩
    let openLog : Folder.LogOpener := .adding ["logs", "day", "cygen.2026-01-01.log"]
    let words := ["--no-describe", "--blank-line-style=Separators", "a.json", "--strict"]
    let outcome := folder.run (fun _ => none) (words ++ ["--log-dir", "logs/day"]) openLog
    (Folder.surroundings openLog).KeepsTexts Folder.place? Folder.text? ∧
    outcome =
      ⟨0, "  it('what_it_does', function() \x7b\n\n\n   cy.get('#a').click()\n\n  \x7d)\n\n", none⟩ ∧
    folder.run (fun _ => none) words openLog = outcome ∧
    ∃ error, folder.run (fun _ => none)
      (words ++ ["--log-dir=logs/day", "--data-attribute", "a b"]) openLog =
        ⟨1, "", some (.refusal (.options error))⟩ := by
  intro folder openLog words outcome
  have hkeeps : (Folder.surroundings openLog).KeepsTexts Folder.place? Folder.text? :=
    Folder.keepsTexts_surroundings (Folder.leavesTexts_adding _)
  let arguments : Arguments :=
    ⟨some "a.json", { wrapDescribe := false, blankLineStyle := .separators }, true, some "logs/day"⟩
  let events : List Event := [⟨.click (some "#a"), none, none⟩]
  have harguments : Request.ofWords (fun _ => none) (words ++ ["--log-dir", "logs/day"]) =
      .generate arguments := by decide +kernel
  have hread : Event.readList "[\x7b\"action\":\"click\",\"selector\":\"#a\"\x7d]" = .ok events := by
    have htext : (Event.listToJson events).compact =
        "[\x7b\"action\":\"click\",\"selector\":\"#a\"\x7d]" := by decide +kernel
    rw [← htext]
    apply Event.readList_listToJson
    · intro event he
      rw [List.mem_singleton.mp he]
      exact ⟨nofun, trivial⟩
    · intro event he x hx
      rw [List.mem_singleton.mp he] at hx
      cases hx
  have hpasses : Passes (Folder.surroundings openLog) arguments folder events := by
    let made := ((Folder.surroundings openLog).makeDirectories "logs/day" folder).2
    let ready := ((Folder.surroundings openLog).openLog "logs/day" made).2
    have hmade : ((Folder.surroundings openLog).makeDirectories "logs/day" folder).1 = .ok () := by
      decide +kernel
    have htext : (Folder.surroundings openLog).textFor arguments ready =
        .ok "[\x7b\"action\":\"click\",\"selector\":\"#a\"\x7d]" := by decide +kernel
    exact {
      recording := ⟨ready, _, ⟨made, Prod.ext hmade rfl, rfl⟩, htext, hread⟩
      options := fun _ => by decide +kernel
      events := fun _ event he => by
        rw [List.mem_singleton.mp he]
        decide +kernel }
  obtain ⟨-, haccepted⟩ := run_prints_test_or_fails (Folder.surroundings openLog) hkeeps
    (fun _ => none) (words ++ ["--log-dir", "logs/day"]) folder
  obtain ⟨-, hprints, -, hlog, hattribute⟩ := haccepted arguments harguments
  have houtcome : outcome = ⟨0, Generator.test { options := arguments.options } events, none⟩ :=
    hprints events hpasses
  refine ⟨hkeeps, houtcome.trans (by decide +kernel), ?_, ?_⟩
  · have hexit : (folder.run (fun _ => none) words openLog).exitCode = 0 := by decide +kernel
    rcases hlog (fun _ => none) words none (by decide +kernel)
      (congrArg Outcome.exitCode houtcome) with h | ⟨failure, -, h⟩
    · exact h
    · cases (congrArg Outcome.exitCode h).symm.trans hexit
  · have hexit : (folder.run (fun _ => none)
        (words ++ ["--log-dir=logs/day", "--data-attribute", "a b"]) openLog).exitCode = 1 := by
      decide +kernel
    rcases hattribute (fun _ => none) (words ++ ["--log-dir=logs/day", "--data-attribute", "a b"])
      "a b" (by decide +kernel) with h | ⟨-, error, h | h⟩
    · cases (congrArg Outcome.exitCode (h.trans houtcome)).symm.trans hexit
    · exact ⟨error, h⟩
    · cases (congrArg Outcome.exitCode h).symm.trans (congrArg Outcome.exitCode houtcome)

/-- The directory is made and a recording is at the standard input, but the log in it has too long a path. -/
theorem log_without_room_in_made_directory :
    let directory := "logs" ++ slashes 4080
    let words := ["--log-dir", directory]
    let folder : Folder := ⟨[], [], some "[]"⟩
    let made : Folder := ⟨[], [⟨.here, ["logs"]⟩], some "[]"⟩
    let report := record "InitError" [("context", Text.quoted "failed to create log file"),
      ("source", FileError.nameTooLong.text)]
    let openLog : Folder.LogOpener := .refusing report
    openLog.LeavesTexts ∧
    Request.ofWords (fun _ => none) words = .generate ⟨none, {}, false, some directory⟩ ∧
    (Folder.surroundings openLog).makeDirectories directory folder = (.ok (), made) ∧
    ((Folder.surroundings openLog).readInput made).1 = .ok "[]" ∧ Event.readList "[]" = .ok [] ∧
    folder.run (fun _ => none) words openLog = ⟨1, "", some (.logFile report)⟩ := by
  intro directory words folder made report openLog
  have hread : Event.readList "[]" = .ok [] := by
    have htext : (Event.listToJson []).compact = "[]" := by decide +kernel
    rw [← htext]
    exact Event.readList_listToJson (by simp) (by simp)
  have hname : 4 + 4080 ≤ maxPathSize := by simp [maxPathSize]
  exact ⟨Folder.leavesTexts_refusing report, ofWords_logs, makeDirectories_logs openLog hname, rfl, hread,
    run_logs report hname⟩

end Retrace.CommandLine
