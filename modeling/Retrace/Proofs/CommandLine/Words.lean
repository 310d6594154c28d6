import Mathlib.Data.List.Infix
import Retrace.CommandLine.Arguments

/-! What accepted words say. Reading them is a relation with one case for each way in which words are taken
from the front, and every part of the arguments follows from it. -/
namespace Retrace.CommandLine

/-- The word that gives a flag. -/
def Flag.word : Flag → String
  | noDescribe => "--no-describe"
  | noBlankLines => "--no-blank-lines"
  | noFrameDeclarations => "--no-frame-declarations"
  | strict => "--strict"

/-- The word before the value of a setting. -/
def Setting.word : Setting → String
  | blankLineStyle => "--blank-line-style"
  | dataAttribute => "--data-attribute"
  | logDirectory => "--log-dir"

/-- The word that ends the options. -/
def endOfOptions : String := "--"

/-- A minus and more. -/
def isOption (text : String) : Bool := text.toList matches '-' :: _ :: _

/-- The words that may be options. -/
def optionWords (words : List String) : List String := words.takeWhile (· ≠ endOfOptions)

/-- A setting is given a value, behind an equals sign or in the next word. -/
def Setting.IsGiven (setting : Setting) (value : String) (words : List String) : Prop :=
  setting.word ++ "=" ++ value ∈ optionWords words ∨ [setting.word, value] <:+: optionWords words

/-- Whether the next word is the value of this one. -/
def takesNext (word : String) : Bool :=
  [Setting.blankLineStyle, .dataAttribute, .logDirectory].any (·.word = word)

/-- The words that name a recording. -/
def fileWords : List String → List String
  | [] => []
  | word :: rest =>
    if word = endOfOptions then rest
    else if takesNext word then
      match rest with
      | [] => []
      | _ :: rest => fileWords rest
    else if isOption word then fileWords rest
    else word :: fileWords rest

/-! ### Words and their texts -/

/-- What a word says of the text that it is read from. -/
def Word.Spells : Word → String → Prop
  | .endOfOptions, text => text = CommandLine.endOfOptions
  | .flag kind, text => text = kind.word
  | .setting kind none, text => text = kind.word
  | .setting kind (some own), text => text = kind.word ++ "=" ++ own
  | .request asked, _ => ∀ arguments, asked ≠ .generate arguments
  | .value content, text => text = content ∧ isOption text = false

lemma Word.spells_ofLong (name : String) (own : Option String) :
    (ofLong name own).Spells ("--" ++ name ++ (own.map ("=" ++ ·)).getD "") := by
  fun_cases ofLong name own with
  | case1 | case2 | case3 | case4 =>
    rw [Spells]
    decide
  | case5 | case6 | case10 => exact fun _ => Request.noConfusion
  | case7 | case8 | case9 =>
    cases own with
    | none =>
      rw [Spells]
      decide
    | some own => simp [Spells, Setting.word, ← String.toList_inj]

theorem Word.spells_ofText (text : String) : (ofText text).Spells text := by
  unfold ofText
  split
  case h_1 h => exact String.toList_inj.mp (h.trans (by decide))
  case h_2 long _ h =>
    have hlong : long.takeWhile (· != '=') ++ long.dropWhile (· != '=') = long :=
      List.takeWhile_append_dropWhile
    split
    case h_1 hown =>
      have htext : text = "--" ++ String.ofList (long.takeWhile (· != '=')) ++ "" := by
        rw [hown, List.append_nil] at hlong
        simp [← String.toList_inj, h, hlong]
      rw [htext]
      exact spells_ofLong _ none
    case h_2 mark own hown =>
      obtain rfl : mark = '=' := by
        have hmark := List.head?_dropWhile_not (· != '=') long
        simpa [hown] using hmark
      have htext : text =
          "--" ++ String.ofList (long.takeWhile (· != '=')) ++ ("=" ++ String.ofList own) := by
        rw [hown] at hlong
        simp [← String.toList_inj, h, hlong]
      rw [htext]
      exact spells_ofLong _ (some _)
  case h_3 | h_4 | h_5 => exact fun _ => Request.noConfusion
  case h_6 =>
    refine ⟨rfl, ?_⟩
    unfold isOption
    split
    · simp_all
    · rfl

/-! ### Reading -/

namespace Given

/-- Reading words one after the other, with one case for each way to take words from the front. -/
inductive Reads : Given → List String → Given → Prop
  | done (given : Given) : Reads given [] given
  | files {given result : Given} {rest : List String} (h : given.addFiles rest = some result) :
    Reads given (endOfOptions :: rest) result
  | flag {given next result : Given} {kind : Flag} {rest : List String}
    (h : given.addFlag kind = some next) (hr : Reads next rest result) :
    Reads given (kind.word :: rest) result
  | attached {given next result : Given} {kind : Setting} {value : String} {rest : List String}
    (h : given.addSetting kind value = some next) (hr : Reads next rest result) :
    Reads given ((kind.word ++ "=" ++ value) :: rest) result
  | separate {given next result : Given} {kind : Setting} {value : String} {rest : List String}
    (hv : isOption value = false) (h : given.addSetting kind value = some next)
    (hr : Reads next rest result) : Reads given (kind.word :: value :: rest) result
  | file {given next result : Given} {file : String} {rest : List String}
    (hf : isOption file = false) (h : given.addFile file = some next)
    (hr : Reads next rest result) : Reads given (file :: rest) result

/-- How reading may end: with what has been read, or with a request for something else than a test. -/
def Ends (given : Given) (words : List String) : Except Request Given → Prop
  | .ok result => Reads given words result
  | .error request => ∀ arguments, request ≠ .generate arguments

lemma ends_orMisuse {given : Given} {words : List String} {added : Option Given}
    (h : ∀ result, added = some result → Reads given words result) :
    Ends given words (readWords.orMisuse added) := by
  cases added with
  | none => exact fun _ => Request.noConfusion
  | some result => exact h result rfl

lemma ends_orMisuse_bind {given : Given} {words rest : List String} {added : Option Given}
    {read : Given → Except Request Given}
    (h : ∀ next result, added = some next → Reads next rest result → Reads given words result)
    (hr : ∀ next, Ends next rest (read next)) :
    Ends given words (readWords.orMisuse added >>= read) := by
  cases added with
  | none => exact fun _ => Request.noConfusion
  | some next =>
    have hnext := hr next
    change Ends given words (read next)
    cases hread : read next with
    | error request => rwa [hread] at hnext
    | ok result =>
      rw [hread] at hnext
      exact h next result rfl hnext

theorem ends_readWords (given : Given) (words : List String) :
    Ends given words (given.readWords words) := by
  have hspells {text : String} {word : Word} (hw : Word.ofText text = word) : word.Spells text :=
    hw ▸ Word.spells_ofText text
  -- The cases are those of the reading: the words run out, or the first of them is of each kind, where a
  -- setting without a value of its own looks at the next word too.
  induction given, words using readWords.induct with
  | case1 given => exact .done given
  | case2 given text rest hw =>
    obtain rfl : text = endOfOptions := hspells hw
    rw [readWords, hw]
    exact ends_orMisuse fun result h => .files h
  | case3 given text rest kind hw ih =>
    obtain rfl : text = kind.word := hspells hw
    rw [readWords, hw]
    exact ends_orMisuse_bind (fun next result h hr => .flag h hr) ih
  | case4 given text rest kind value hw ih =>
    obtain rfl : text = kind.word ++ "=" ++ value := hspells hw
    rw [readWords, hw]
    exact ends_orMisuse_bind (fun next result h hr => .attached h hr) ih
  | case5 given text kind hw =>
    rw [readWords, hw]
    exact fun _ => Request.noConfusion
  | case6 given text kind hw value rest content hv ih =>
    obtain rfl : text = kind.word := hspells hw
    obtain ⟨rfl, hvalue⟩ : value = content ∧ isOption value = false := hspells hv
    rw [readWords, hw]
    simp only [hv]
    exact ends_orMisuse_bind (fun next result h hr => .separate hvalue h hr) ih
  | case7 given text kind hw value rest hv =>
    rw [readWords, hw]
    simp only
    exact fun _ => Request.noConfusion
  | case8 given text rest request hw =>
    rw [readWords, hw]
    exact hspells hw
  | case9 given text rest file hw ih =>
    obtain ⟨rfl, hfile⟩ : text = file ∧ isOption text = false := hspells hw
    rw [readWords, hw]
    exact ends_orMisuse_bind (fun next result h hr => .file hfile h hr) ih

end Given

/-! ### The options that stand in the words -/

lemma isOption_flag_word (kind : Flag) : isOption kind.word := by cases kind <;> decide

lemma isOption_setting_word (kind : Setting) : isOption kind.word := by cases kind <;> decide

lemma isOption_attached (kind : Setting) (value : String) :
    isOption (kind.word ++ "=" ++ value) := by
  cases kind <;> simp [isOption, Setting.word]

lemma equals_notMem_flag_word (kind : Flag) : '=' ∉ kind.word.toList := by cases kind <;> decide

lemma equals_notMem_setting_word (kind : Setting) : '=' ∉ kind.word.toList := by
  cases kind <;> decide

lemma equals_mem_attached (kind : Setting) (value : String) :
    '=' ∈ (kind.word ++ "=" ++ value).toList := by simp

lemma flag_word_injective : Function.Injective Flag.word := by
  intro kind other h
  cases kind <;> cases other <;> first | rfl | exact absurd h (by decide)

lemma setting_word_injective : Function.Injective Setting.word := by
  intro kind other h
  cases kind <;> cases other <;> first | rfl | exact absurd h (by decide)

lemma flag_word_ne_setting_word (flag : Flag) (setting : Setting) : flag.word ≠ setting.word := by
  cases flag <;> cases setting <;> decide

lemma attached_inj {kind other : Setting} {value text : String}
    (h : kind.word ++ "=" ++ value = other.word ++ "=" ++ text) : kind = other ∧ value = text := by
  cases kind <;> cases other <;> simp_all [Setting.word, ← String.toList_inj]

lemma optionWords_end (rest : List String) : optionWords (endOfOptions :: rest) = [] := by
  simp [optionWords]

lemma optionWords_cons {word : String} (h : word ≠ endOfOptions) (rest : List String) :
    optionWords (word :: rest) = word :: optionWords rest := by
  simp [optionWords, h]

lemma ne_end_of_isOption_false {word : String} (h : isOption word = false) : word ≠ endOfOptions := by
  rintro rfl
  exact absurd h (by decide)

lemma flag_word_ne_end (kind : Flag) : kind.word ≠ endOfOptions := by cases kind <;> decide

lemma setting_word_ne_end (kind : Setting) : kind.word ≠ endOfOptions := by cases kind <;> decide

lemma ne_of_equals_mem {word other : String} (h : '=' ∈ word.toList) (ho : '=' ∉ other.toList) :
    word ≠ other := by
  rintro rfl
  exact ho h

lemma attached_ne_end (kind : Setting) (value : String) :
    kind.word ++ "=" ++ value ≠ endOfOptions :=
  ne_of_equals_mem (equals_mem_attached kind value) (by decide)

namespace Setting
variable {kind other : Setting} {word value text : String} {rest : List String}

lemma isGiven_cons (h : word ≠ endOfOptions) : kind.IsGiven value (word :: rest) ↔
    kind.word ++ "=" ++ value = word ∨ (kind.word = word ∧ [value] <+: optionWords rest) ∨
      kind.IsGiven value rest := by
  simp only [IsGiven, optionWords_cons h, List.mem_cons, List.infix_cons_iff, List.cons_prefix_cons]
  tauto

lemma not_isGiven_end : ¬ kind.IsGiven value (endOfOptions :: rest) := by
  simp [IsGiven, optionWords_end]

lemma isGiven_cons_flag {flag : Flag} :
    kind.IsGiven value (flag.word :: rest) ↔ kind.IsGiven value rest := by
  have hattached : kind.word ++ "=" ++ value ≠ flag.word :=
    ne_of_equals_mem (equals_mem_attached kind value) (equals_notMem_flag_word flag)
  rw [isGiven_cons (flag_word_ne_end flag)]
  simp only [hattached, (flag_word_ne_setting_word flag kind).symm, false_and, false_or]

lemma isGiven_cons_value (h : isOption word = false) :
    kind.IsGiven value (word :: rest) ↔ kind.IsGiven value rest := by
  have hattached : kind.word ++ "=" ++ value ≠ word := by
    rintro rfl
    simp [isOption_attached] at h
  have hseparate : kind.word ≠ word := by
    rintro rfl
    simp [isOption_setting_word] at h
  rw [isGiven_cons (ne_end_of_isOption_false h)]
  simp only [hattached, hseparate, false_and, false_or]

lemma isGiven_cons_attached : kind.IsGiven value ((other.word ++ "=" ++ text) :: rest) ↔
    (kind = other ∧ value = text) ∨ kind.IsGiven value rest := by
  have hseparate : kind.word ≠ other.word ++ "=" ++ text :=
    (ne_of_equals_mem (equals_mem_attached other text) (equals_notMem_setting_word kind)).symm
  rw [isGiven_cons (attached_ne_end other text)]
  simp only [hseparate, false_and, false_or]
  refine or_congr_left ⟨attached_inj, ?_⟩
  rintro ⟨rfl, rfl⟩
  rfl

lemma isGiven_cons_separate (h : isOption text = false) :
    kind.IsGiven value (other.word :: text :: rest) ↔
      (kind = other ∧ value = text) ∨ kind.IsGiven value rest := by
  have hattached : kind.word ++ "=" ++ value ≠ other.word :=
    ne_of_equals_mem (equals_mem_attached kind value) (equals_notMem_setting_word other)
  rw [isGiven_cons (setting_word_ne_end other), isGiven_cons_value h,
    optionWords_cons (ne_end_of_isOption_false h)]
  simp [hattached, setting_word_injective.eq_iff]

end Setting

section FileWords
variable {word : String} (rest : List String)

lemma takesNext_eq_true : takesNext word ↔ ∃ kind : Setting, kind.word = word := by
  simp only [takesNext, List.any_cons, List.any_nil, Bool.or_false, Bool.or_eq_true, decide_eq_true_eq]
  constructor
  · rintro (h | h | h) <;> exact ⟨_, h⟩
  · rintro ⟨kind, h⟩
    cases kind <;> simp [h]

lemma fileWords_end : fileWords (endOfOptions :: rest) = rest := by
  rw [fileWords.eq_def]
  exact if_pos rfl

lemma fileWords_option (he : word ≠ endOfOptions) (hs : ∀ kind : Setting, kind.word ≠ word)
    (ho : isOption word) : fileWords (word :: rest) = fileWords rest := by
  have hnext : ¬ takesNext word := fun h => by
    obtain ⟨kind, hk⟩ := takesNext_eq_true.mp h
    exact hs kind hk
  rw [fileWords.eq_def]
  simp only [he, hnext, ho, if_true, if_false, Bool.false_eq_true]

lemma fileWords_separate (kind : Setting) (value : String) :
    fileWords (kind.word :: value :: rest) = fileWords rest := by
  have hnext : takesNext kind.word := takesNext_eq_true.mpr ⟨kind, rfl⟩
  rw [fileWords.eq_def]
  simp only [setting_word_ne_end kind, hnext, if_true, if_false]

lemma fileWords_value (h : isOption word = false) :
    fileWords (word :: rest) = word :: fileWords rest := by
  have hnext : ¬ takesNext word := fun hn => by
    obtain ⟨kind, rfl⟩ := takesNext_eq_true.mp hn
    simp [isOption_setting_word] at h
  rw [fileWords.eq_def]
  simp only [ne_end_of_isOption_false h, hnext, h, if_false, Bool.false_eq_true]

end FileWords

/-! ### What the words leave in the arguments -/

namespace Given

/-- What a text leaves that is given for a setting. -/
def Has (given : Given) : Setting → String → Prop
  | .blankLineStyle, text =>
    ∃ style, BlankLineStyle.parse text = .ok style ∧ given.blankLineStyle = some style
  | .dataAttribute, text => given.dataAttribute = some text
  | .logDirectory, text => given.logDirectory = some text

def Lacks (given : Given) : Setting → Prop
  | .blankLineStyle => given.blankLineStyle = none
  | .dataAttribute => given.dataAttribute = none
  | .logDirectory => given.logDirectory = none

lemma Has.not_lacks {given : Given} {kind : Setting} {text : String} (h : given.Has kind text) :
    ¬ given.Lacks kind := by
  cases kind <;> simp_all [Has, Lacks]
  obtain ⟨style, -, hs⟩ := h
  simp [hs]

/-- A step that stores one setting. -/
structure Stores (given next : Given) (kind : Setting) (value : String) : Prop where
  flags : next.flags = given.flags
  file : next.file = given.file
  lacks : given.Lacks kind
  has : next.Has kind value
  others : ∀ other, other ≠ kind →
    (given.Lacks other → next.Lacks other) ∧ ∀ text, given.Has other text → next.Has other text

lemma path?_eq_some {text path : String} : path? text = some path ↔ text ≠ "" ∧ text = path := by
  simp [path?]

lemma stores_of_addSetting {given next : Given} {kind : Setting} {value : String}
    (h : given.addSetting kind value = some next) : Stores given next kind value := by
  cases kind with
  | blankLineStyle =>
    simp only [addSetting, Option.ite_none_left_eq_some, Option.map_eq_some_iff,
      Option.not_isSome_iff_eq_none] at h
    obtain ⟨hlacks, style, hstyle, rfl⟩ := h
    have hparse : BlankLineStyle.parse value = .ok style := by
      cases hp : BlankLineStyle.parse value <;> simp_all [Except.toOption]
    refine ⟨rfl, rfl, hlacks, ⟨style, hparse, rfl⟩, fun other ho => ?_⟩
    cases other <;> first | exact absurd rfl ho | exact ⟨id, fun _ => id⟩
  | dataAttribute =>
    simp only [addSetting, Option.ite_none_left_eq_some, Option.some.injEq,
      Option.not_isSome_iff_eq_none] at h
    obtain ⟨hlacks, rfl⟩ := h
    refine ⟨rfl, rfl, hlacks, rfl, fun other ho => ?_⟩
    cases other <;> first | exact absurd rfl ho | exact ⟨id, fun _ => id⟩
  | logDirectory =>
    simp only [addSetting, Option.ite_none_left_eq_some, Option.map_eq_some_iff, path?_eq_some,
      Option.not_isSome_iff_eq_none] at h
    obtain ⟨hlacks, _, ⟨-, rfl⟩, rfl⟩ := h
    refine ⟨rfl, rfl, hlacks, rfl, fun other ho => ?_⟩
    cases other <;> first | exact absurd rfl ho | exact ⟨id, fun _ => id⟩

lemma addFlag_eq_some {given next : Given} {kind : Flag} : given.addFlag kind = some next ↔
    kind ∉ given.flags ∧ { given with flags := kind :: given.flags } = next := by
  simp [addFlag]

lemma addFile_eq_some {given next : Given} {file : String} : given.addFile file = some next ↔
    given.file = none ∧ file ≠ "" ∧ { given with file := some file } = next := by
  simp [addFile, path?]

lemma addFiles_eq_some {given result : Given} {files : List String}
    (h : given.addFiles files = some result) :
    result = { given with file := result.file } ∧
      result.file.toList = given.file.toList ++ files := by
  unfold addFiles at h
  induction files generalizing given with
  | nil =>
    obtain rfl : given = result := by simpa using h
    simp
  | cons file rest ih =>
    rw [List.foldlM_cons] at h
    obtain ⟨next, hnext, hrest⟩ := Option.bind_eq_some_iff.mp h
    obtain ⟨hnone, -, rfl⟩ := addFile_eq_some.mp hnext
    obtain ⟨hresult, hfile⟩ := ih hrest
    exact ⟨hresult, by simp [hfile, hnone]⟩

namespace Reads
variable {given result : Given} {words : List String}

theorem mem_flags (h : Reads given words result) (kind : Flag) :
    kind ∈ result.flags ↔ kind ∈ given.flags ∨ kind.word ∈ optionWords words := by
  induction h with
  | done given => simp [optionWords]
  | files h =>
    rw [(addFiles_eq_some h).1, optionWords_end]
    simp
  | @flag given next result other rest h hr ih =>
    obtain ⟨-, rfl⟩ := addFlag_eq_some.mp h
    rw [ih, optionWords_cons (flag_word_ne_end other), List.mem_cons, List.mem_cons,
      flag_word_injective.eq_iff]
    tauto
  | @attached given next result other value rest h hr ih =>
    have hne : kind.word ≠ other.word ++ "=" ++ value :=
      (ne_of_equals_mem (equals_mem_attached other value) (equals_notMem_flag_word kind)).symm
    rw [ih, (stores_of_addSetting h).flags, optionWords_cons (attached_ne_end other value),
      List.mem_cons, or_iff_right hne]
  | @separate given next result other value rest hv h hr ih =>
    -- The value is no option, so it cannot be taken for a flag.
    have hne : kind.word ≠ value := by
      rintro rfl
      simp [isOption_flag_word] at hv
    rw [ih, (stores_of_addSetting h).flags, optionWords_cons (setting_word_ne_end other),
      optionWords_cons (ne_end_of_isOption_false hv), List.mem_cons, List.mem_cons,
      or_iff_right (flag_word_ne_setting_word kind other), or_iff_right hne]
  | @file given next result file rest hf h hr ih =>
    obtain ⟨-, -, rfl⟩ := addFile_eq_some.mp h
    have hne : kind.word ≠ file := by
      rintro rfl
      simp [isOption_flag_word] at hf
    rw [ih, optionWords_cons (ne_end_of_isOption_false hf), List.mem_cons, or_iff_right hne]

lemma has_of_has (h : Reads given words result) {kind : Setting} {text : String}
    (hg : given.Has kind text) : result.Has kind text := by
  have hstep {given next : Given} {other : Setting} {value : String}
      (hs : Stores given next other value) (hg : given.Has kind text) : next.Has kind text := by
    refine (hs.others kind ?_).2 text hg
    rintro rfl
    exact hg.not_lacks hs.lacks
  induction h with
  | done given => exact hg
  | files h =>
    rw [(addFiles_eq_some h).1]
    cases kind <;> exact hg
  | flag h hr ih =>
    obtain ⟨-, rfl⟩ := addFlag_eq_some.mp h
    exact ih (by cases kind <;> exact hg)
  | attached h hr ih => exact ih (hstep (stores_of_addSetting h) hg)
  | separate hv h hr ih => exact ih (hstep (stores_of_addSetting h) hg)
  | file hf h hr ih =>
    obtain ⟨-, -, rfl⟩ := addFile_eq_some.mp h
    exact ih (by cases kind <;> exact hg)

theorem has_of_isGiven (h : Reads given words result) {kind : Setting} {text : String}
    (hg : kind.IsGiven text words) : result.Has kind text := by
  induction h with
  | done given => simp [Setting.IsGiven, optionWords] at hg
  | files h => exact absurd hg Setting.not_isGiven_end
  | flag h hr ih => exact ih (Setting.isGiven_cons_flag.mp hg)
  | attached h hr ih =>
    rcases Setting.isGiven_cons_attached.mp hg with ⟨rfl, rfl⟩ | hg
    · exact hr.has_of_has (stores_of_addSetting h).has
    · exact ih hg
  | separate hv h hr ih =>
    rcases (Setting.isGiven_cons_separate hv).mp hg with ⟨rfl, rfl⟩ | hg
    · exact hr.has_of_has (stores_of_addSetting h).has
    · exact ih hg
  | file hf h hr ih => exact ih ((Setting.isGiven_cons_value hf).mp hg)

theorem lacks_of_not_isGiven (h : Reads given words result) {kind : Setting}
    (hl : given.Lacks kind) (hn : ∀ text, ¬ kind.IsGiven text words) : result.Lacks kind := by
  induction h with
  | done given => exact hl
  | files h =>
    rw [(addFiles_eq_some h).1]
    cases kind <;> exact hl
  | flag h hr ih =>
    obtain ⟨-, rfl⟩ := addFlag_eq_some.mp h
    refine ih (by cases kind <;> exact hl) fun text hg => ?_
    exact hn text (Setting.isGiven_cons_flag.mpr hg)
  | @attached given next result other value rest h hr ih =>
    have hne : kind ≠ other := by
      rintro rfl
      exact hn value (Setting.isGiven_cons_attached.mpr (.inl ⟨rfl, rfl⟩))
    refine ih (((stores_of_addSetting h).others kind hne).1 hl) fun text hg => ?_
    exact hn text (Setting.isGiven_cons_attached.mpr (.inr hg))
  | @separate given next result other value rest hv h hr ih =>
    have hne : kind ≠ other := by
      rintro rfl
      exact hn value ((Setting.isGiven_cons_separate hv).mpr (.inl ⟨rfl, rfl⟩))
    refine ih (((stores_of_addSetting h).others kind hne).1 hl) fun text hg => ?_
    exact hn text ((Setting.isGiven_cons_separate hv).mpr (.inr hg))
  | file hf h hr ih =>
    obtain ⟨-, -, rfl⟩ := addFile_eq_some.mp h
    refine ih (by cases kind <;> exact hl) fun text hg => ?_
    exact hn text ((Setting.isGiven_cons_value hf).mpr hg)

/-- The file is what is left of the words without options and their values. -/
theorem file_eq (h : Reads given words result) :
    result.file.toList = given.file.toList ++ fileWords words := by
  induction h with
  | done given => simp [fileWords]
  | files h => rw [(addFiles_eq_some h).2, fileWords_end]
  | @flag given next result kind rest h hr ih =>
    obtain ⟨-, rfl⟩ := addFlag_eq_some.mp h
    rw [ih, fileWords_option rest (flag_word_ne_end kind)
      (fun other => (flag_word_ne_setting_word kind other).symm) (isOption_flag_word kind)]
  | @attached given next result kind value rest h hr ih =>
    have hne (other : Setting) : other.word ≠ kind.word ++ "=" ++ value :=
      (ne_of_equals_mem (equals_mem_attached kind value) (equals_notMem_setting_word other)).symm
    rw [ih, (stores_of_addSetting h).file,
      fileWords_option rest (attached_ne_end kind value) hne (isOption_attached kind value)]
  | @separate given next result kind value rest hv h hr ih =>
    rw [ih, (stores_of_addSetting h).file, fileWords_separate]
  | @file given next result file rest hf h hr ih =>
    obtain ⟨hnone, -, rfl⟩ := addFile_eq_some.mp h
    rw [ih, hnone, fileWords_value rest hf]
    rfl

end Reads

end Given

/-- How accepted arguments follow from the words, and from the environment where the words do not give a
setting. -/
structure Arguments.AreGiven (environment : String → Option String) (words : List String)
    (arguments : Arguments) : Prop where
  wrapDescribe : arguments.options.wrapDescribe ↔ Flag.noDescribe.word ∉ optionWords words
  blankLines : arguments.options.blankLines ↔ Flag.noBlankLines.word ∉ optionWords words
  declareFrames :
    arguments.options.declareFrames ↔ Flag.noFrameDeclarations.word ∉ optionWords words
  strict : arguments.strict ↔ Flag.strict.word ∈ optionWords words
  style : ∀ text, Setting.blankLineStyle.IsGiven text words →
    BlankLineStyle.parse text = .ok arguments.options.blankLineStyle
  defaultStyle : (∀ text, ¬ Setting.blankLineStyle.IsGiven text words) →
    arguments.options.blankLineStyle = .joined
  dataAttribute : ∀ text, Setting.dataAttribute.IsGiven text words →
    arguments.options.dataAttribute = text
  defaultDataAttribute : (∀ text, ¬ Setting.dataAttribute.IsGiven text words) →
    arguments.options.dataAttribute = (environment "CYGEN_DATA_ATTRIBUTE").getD ""
  logDirectory : ∀ text, Setting.logDirectory.IsGiven text words →
    arguments.logDirectory = some text
  defaultLogDirectory : (∀ text, ¬ Setting.logDirectory.IsGiven text words) →
    arguments.logDirectory = environment "CYGEN_LOG_DIR"
  file : arguments.file.toList = fileWords words

lemma Given.arguments_eq_generate {given : Given} {environment : String → Option String}
    {arguments : Arguments} (h : given.arguments environment = .generate arguments) :
    arguments =
      { file := given.file
        options :=
          { wrapDescribe := !given.flags.contains .noDescribe
            blankLines := !given.flags.contains .noBlankLines
            dataAttribute := (given.dataAttribute.or (environment "CYGEN_DATA_ATTRIBUTE")).getD ""
            declareFrames := !given.flags.contains .noFrameDeclarations
            blankLineStyle := given.blankLineStyle.getD .joined }
        strict := given.flags.contains .strict
        logDirectory := given.logDirectory.or (environment "CYGEN_LOG_DIR") } := by
  unfold Given.arguments at h
  cases hd : given.logDirectory with
  | none =>
    simp only [hd, Option.isSome_none, Bool.false_eq_true, if_false, Option.none_or] at h ⊢
    split at h
    · cases h
    · exact (Request.generate.inj h).symm
  | some directory =>
    simp only [hd, Option.isSome_some, if_true, reduceCtorEq, if_false, Option.some_or] at h ⊢
    exact (Request.generate.inj h).symm

lemma Given.areGiven_arguments {environment : String → Option String} {words : List String}
    {given : Given} (hr : Reads {} words given) {arguments : Arguments}
    (h : given.arguments environment = .generate arguments) :
    arguments.AreGiven environment words := by
  have hflag (kind : Flag) : kind ∈ given.flags ↔ kind.word ∈ optionWords words := by
    simpa using hr.mem_flags kind
  have hlacks (kind : Setting) : (∀ text, ¬ kind.IsGiven text words) → given.Lacks kind :=
    hr.lacks_of_not_isGiven (by cases kind <;> rfl)
  obtain rfl := arguments_eq_generate h
  exact {
    wrapDescribe := by simp [hflag]
    blankLines := by simp [hflag]
    declareFrames := by simp [hflag]
    strict := by simp [hflag]
    style := by
      intro text ht
      obtain ⟨style, hparse, hstyle⟩ := hr.has_of_isGiven ht
      simp [hparse, hstyle]
    defaultStyle := by
      intro hn
      have hnone : given.blankLineStyle = none := hlacks _ hn
      simp [hnone]
    dataAttribute := by
      intro text ht
      have hsome : given.dataAttribute = some text := hr.has_of_isGiven ht
      simp [hsome]
    defaultDataAttribute := by
      intro hn
      have hnone : given.dataAttribute = none := hlacks _ hn
      simp [hnone]
    logDirectory := by
      intro text ht
      have hsome : given.logDirectory = some text := hr.has_of_isGiven ht
      simp [hsome]
    defaultLogDirectory := by
      intro hn
      have hnone : given.logDirectory = none := hlacks _ hn
      simp [hnone]
    file := by simpa using hr.file_eq }

/-- What accepted words ask for is what stands in them. -/
theorem Request.areGiven_of_ofWords {environment : String → Option String} {words : List String}
    {arguments : Arguments} (h : Request.ofWords environment words = .generate arguments) :
    arguments.AreGiven environment words := by
  have hends := Given.ends_readWords {} words
  unfold Request.ofWords at h
  split at h
  · rename_i request hr
    rw [hr] at hends
    exact absurd h (hends arguments)
  · rename_i given hr
    rw [hr] at hends
    exact Given.areGiven_arguments hends h

end Retrace.CommandLine
