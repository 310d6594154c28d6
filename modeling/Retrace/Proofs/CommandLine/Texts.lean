import Retrace.CommandLine.Folder
import Retrace.Proofs.Success

/-! What logging does to the texts that a run reads. Directories leave every text, and a log adds empty ones
or removes some, so a path with a text under two settings of the log has one text. -/
namespace Retrace.CommandLine

namespace Surroundings
variable {σ Place : Type} {surroundings : Surroundings (StateM σ)} {world other : σ}

/-- The text of a file, or of the standard input where no file is named. -/
def textAt (surroundings : Surroundings (StateM σ)) (source : Option String) (world : σ) :
    Except FileError String :=
  match source with
  | some path => (surroundings.readFile path world).1
  | none => (surroundings.readInput world).1

/-- What a log may do to a text: leave it, or begin an empty one. -/
def LeavesText (before after : Option String) : Prop :=
  ∀ content, after = some content → before = some content ∨ before = none ∧ content = ""

/-- The operations as documented: what is read lies at a place, making and asking for directories change no
text, and a log is appended to. -/
structure KeepsTexts (surroundings : Surroundings (StateM σ)) (place? : Option String → Option Place)
    (text? : σ → Place → Option String) : Prop where
  read {source : Option String} {world : σ} {content : String}
    (h : surroundings.textAt source world = .ok content) :
    ∃ place, place? source = some place ∧ text? world place = some content
  make (path : String) (world : σ) :
    text? (surroundings.makeDirectory path world).2 = text? world
  ask (path : String) (world : σ) :
    text? (surroundings.isDirectory path world).2 = text? world
  log (directory : String) (world : σ) (place : Place) :
    LeavesText (text? world place) (text? (surroundings.openLog directory world).2 place)

/-- The worlds that making directories may lead to. -/
inductive Reaches (surroundings : Surroundings (StateM σ)) (world : σ) : σ → Prop
  | here : Reaches surroundings world world
  | make {other : σ} (h : Reaches surroundings world other) (path : String) :
    Reaches surroundings world (surroundings.makeDirectory path other).2
  | ask {other : σ} (h : Reaches surroundings world other) (path : String) :
    Reaches surroundings world (surroundings.isDirectory path other).2

lemma reaches_bind {α β : Type} {step : StateM σ α} {next : α → StateM σ β}
    (hs : surroundings.Reaches world (step other).2)
    (hn : ∀ value reached, surroundings.Reaches world reached →
      surroundings.Reaches world (next value reached).2) :
    surroundings.Reaches world ((step >>= next) other).2 := hn _ _ hs

lemma reaches_ensure (h : surroundings.Reaches world other) (path : String) :
    surroundings.Reaches world (surroundings.ensure path other).2 := by
  refine reaches_bind (h.make path) fun made reached hr => ?_
  split
  · exact reaches_bind (hr.ask path) fun _ _ hr => hr
  · exact hr

lemma reaches_ensureFirst (h : surroundings.Reaches world other) (paths : List String) :
    surroundings.Reaches world (surroundings.ensureFirst paths other).2 := by
  induction paths generalizing other with
  | nil => exact h
  | cons path outer ih =>
    refine reaches_bind (reaches_ensure h path) fun made reached hr => ?_
    split
    · refine reaches_bind (ih hr) fun around reached hr => ?_
      split
      · exact reaches_ensure hr path
      · exact hr
    · exact hr

lemma reaches_makeDirectories (h : surroundings.Reaches world other) (path : String) :
    surroundings.Reaches world (surroundings.makeDirectories path other).2 :=
  reaches_ensureFirst h (outward path)

section KeepsTexts
variable {place? : Option String → Option Place} {text? : σ → Place → Option String}

lemma KeepsTexts.text?_of_reaches (h : surroundings.KeepsTexts place? text?)
    (hr : surroundings.Reaches world other) : text? other = text? world := by
  induction hr with
  | here => rfl
  | make hr path ih => rw [h.make, ih]
  | ask hr path ih => rw [h.ask, ih]

end KeepsTexts

end Surroundings

namespace Folder
variable {folder other : Folder}

/-- Where a name leads, whether or not something is there. -/
def next (spot : Spot) (name : String) : Spot :=
  if name == "" || name == "." then spot
  else if name == ".." then spot.parent
  else spot.child name

lemma lookup_eq_ok {spot : Spot} {name : String} {found : Found}
    (h : folder.lookup spot name = .ok found) : found = .directory (next spot name) ∨
      ∃ content, found = .file content ∧ folder.file? (next spot name) = some content := by
  unfold lookup at h
  unfold next
  split_ifs at h ⊢
  all_goals first | exact .inl (Except.ok.inj h).symm | skip
  split at h
  · rename_i content hc
    exact .inr ⟨content, (Except.ok.inj h).symm, hc⟩
  · cases h

lemma file?_of_read {spot : Spot} {names : List String} {content : String}
    (h : folder.read spot names = .ok content) : folder.file? (names.foldl next spot) = some content := by
  induction names generalizing spot with
  | nil => cases h
  | cons name rest ih =>
    rw [read] at h
    obtain ⟨found, hl, h⟩ := bind_eq_ok.mp h
    rcases lookup_eq_ok hl with rfl | ⟨text, rfl, hf⟩
    · exact ih h
    · simp only at h
      split_ifs at h with hr
      cases h
      rw [List.isEmpty_iff.mp hr]
      exact hf

lemma make_eq_ok {spot : Spot} {names : List String} {made : Folder}
    (h : folder.make spot names = .ok made) : made.files = folder.files ∧ made.input = folder.input := by
  induction spot, names using make.induct folder with
  | case1 spot => cases h
  | case2 spot name found hl => simp [make, hl] at h
  | case3 spot name hl =>
    simp only [make, hl] at h
    cases h
    exact ⟨rfl, rfl⟩
  | case4 spot name error hne hl => simp [make, hl] at h
  | case5 spot name rest hne ih =>
    rw [make] at h
    · obtain ⟨found, hl, h⟩ := bind_eq_ok.mp h
      cases found with
      | directory spot => exact ih spot h
      | file content => cases h
    · exact hne

lemma makeDirectory_eq_ok {path : String} {made : Folder}
    (h : folder.makeDirectory path = .ok made) :
    made.files = folder.files ∧ made.input = folder.input := by
  unfold makeDirectory at h
  obtain ⟨⟨spot, names⟩, -, hm⟩ := bind_eq_ok.mp h
  exact make_eq_ok hm

lemma readFile_eq_ok {path content : String} (h : folder.readFile path = .ok content) :
    ∃ spot names, partsOf path = .ok (spot, names) ∧
      folder.file? (names.foldl next spot) = some content := by
  unfold readFile at h
  obtain ⟨⟨spot, names⟩, hp, hr⟩ := bind_eq_ok.mp h
  exact ⟨spot, names, hp, file?_of_read hr⟩

/-- A place for a text: that of a file, or the standard input. -/
abbrev Place := Option Spot

/-- The place where a path leads, whether or not something is there. -/
def place? : Option String → Option Place
  | none => some none
  | some path => (partsOf path).toOption.map fun parts => some (parts.2.foldl next parts.1)

def text? (folder : Folder) : Place → Option String
  | none => folder.input
  | some spot => folder.file? spot

/-- A log as documented: opening it leaves a text or removes it, and what it adds is empty. -/
def LogOpener.LeavesTexts (openLog : LogOpener) : Prop :=
  ∀ directory (folder : Folder) place,
    Surroundings.LeavesText (folder.text? place) ((openLog directory folder).2.text? place)

lemma exists_place_of_textAt {openLog : LogOpener} {source : Option String} {content : String}
    (h : (surroundings openLog).textAt source folder = .ok content) :
    ∃ place, place? source = some place ∧ folder.text? place = some content := by
  cases source with
  | none =>
    refine ⟨none, rfl, ?_⟩
    change folder.input.elim _ _ = _ at h
    change folder.input = some content
    cases hi : folder.input with
    | none => simp [hi] at h
    | some input => simpa [hi] using h
  | some path =>
    obtain ⟨spot, names, hp, hf⟩ := readFile_eq_ok h
    exact ⟨some (names.foldl next spot), by simp [place?, hp, Except.toOption], hf⟩

lemma text?_makeDirectory (openLog : LogOpener) (path : String) (folder : Folder) :
    ((surroundings openLog).makeDirectory path folder).2.text? = folder.text? := by
  simp only [surroundings]
  split
  · rename_i made hm
    obtain ⟨hfiles, hinput⟩ := makeDirectory_eq_ok hm
    funext place
    cases place <;> simp [text?, file?, hfiles, hinput]
  · rfl

theorem keepsTexts_surroundings {openLog : LogOpener} (h : openLog.LeavesTexts) :
    (surroundings openLog).KeepsTexts place? text? where
  read := exists_place_of_textAt
  make := text?_makeDirectory openLog
  ask _ _ := rfl
  log := h

/-- A log that is opened as an empty file, unless the file is there. -/
def LogOpener.adding (path : Path) : LogOpener := fun _ folder =>
  (.ok (), { folder with files := folder.files ++ [(path, "")] })

/-- A log that cannot be opened. -/
def LogOpener.refusing (report : String) : LogOpener := fun _ => return .error report

lemma leavesTexts_adding (path : Path) : (LogOpener.adding path).LeavesTexts := by
  intro directory folder place content h
  cases place with
  | none => exact .inl h
  | some spot =>
    simp only [text?, file?, LogOpener.adding] at h ⊢
    split_ifs at h ⊢ with ho
    rw [List.lookup_append] at h
    cases hl : folder.files.lookup spot.path with
    | some text => exact .inl (by simpa [hl] using h)
    | none =>
      refine .inr ⟨rfl, ?_⟩
      rw [hl, Option.none_or, List.lookup_cons] at h
      split at h
      · exact (Option.some.inj h).symm
      · cases h

lemma leavesTexts_refusing (report : String) : (LogOpener.refusing report).LeavesTexts :=
  fun _ _ _ _ h => .inl h

end Folder
end Retrace.CommandLine
