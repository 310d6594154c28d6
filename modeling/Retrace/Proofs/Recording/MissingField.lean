import Mathlib.Data.List.Perm.Basic
import Retrace.Proofs.CheckedTest
import Retrace.Proofs.CommandText

/-! Missing fields against the errors of a check. Which fields an event needs is a relation of its own; the
errors stand at the paths of what is missing and nowhere else. -/
namespace Retrace

section FieldPath

/-- The path of a field below an item of a list. -/
def fieldPath (list : String) (i : Nat) (field : String) : String :=
  list ++ "[" ++ toString i ++ "]." ++ field

lemma itemPath_name (list : String) (i : Nat) :
    itemPath list i ++ ".name" = fieldPath list i "name" := by
  simp [itemPath, fieldPath, ← String.toList_inj]

lemma itemPath_value (list : String) (i : Nat) :
    itemPath list i ++ ".value" = fieldPath list i "value" := by
  simp [itemPath, fieldPath, ← String.toList_inj]

lemma Finding.path_inside (list : String) (i : Nat) (finding : Finding) :
    (finding.inside (itemPath list i)).path = fieldPath list i finding.path := by
  simp [inside, itemPath, fieldPath, ← String.toList_inj]

lemma toList_fieldPath (list field : String) (i : Nat) : (fieldPath list i field).toList =
    list.toList ++ '[' :: (Nat.toDigits 10 i ++ ']' :: '.' :: field.toList) := by
  simp [fieldPath]

/-- A path below an item has one reading: the digits end at the bracket. -/
theorem fieldPath_injective {list : String} {i k : Nat} {p q : String}
    (h : fieldPath list i p = fieldPath list k q) : i = k ∧ p = q := by
  have hl := congrArg String.toList h
  rw [toList_fieldPath, toList_fieldPath] at hl
  have hrest := (List.cons.inj (List.append_cancel_left hl)).2
  obtain rfl := eq_of_toDigits_append (by decide) hrest
  have hp := (List.cons.inj (List.cons.inj (List.append_cancel_left hrest)).2).2
  exact ⟨rfl, String.toList_inj.mp hp⟩

lemma ne_fieldPath {path : String} (h : '[' ∉ path.toList) (list : String) (i : Nat)
    (field : String) : path ≠ fieldPath list i field := by
  rintro rfl
  exact h (by simp [fieldPath])

lemma fieldPath_index_unique {list other : String} {i k : Nat} {p q : String}
    (hlist : '[' ∉ list.toList) (hp : '[' ∉ p.toList)
    (h : fieldPath list i p = fieldPath other k q) : i = k := by
  have hl := congrArg String.toList h
  rw [toList_fieldPath, toList_fieldPath] at hl
  have hrest : '[' ∉ Nat.toDigits 10 i ++ ']' :: '.' :: p.toList := by
    have hdigits : '[' ∉ Nat.toDigits 10 i := fun hm =>
      absurd (Nat.isDigit_of_mem_toDigits (by decide) (by decide) hm) (by decide)
    simp [hdigits, hp]
  obtain ⟨hother, -, -⟩ := (List.append_cons_inj_of_notMem hlist hrest).mp hl
  obtain rfl := String.toList_inj.mp hother
  exact (fieldPath_injective h).1

end FieldPath

section ByIndex
variable {α β γ : Type} {R : β → β → Prop} {f : Nat → α → γ} {g : γ → List β} {items : List α}

lemma mem_flatMap_mapIdx {x : β} :
    x ∈ (items.mapIdx f).flatMap g ↔ ∃ i item, items[i]? = some item ∧ x ∈ g (f i item) := by
  constructor
  · intro h
    obtain ⟨found, hm, hx⟩ := List.mem_flatMap.mp h
    obtain ⟨i, hi, rfl⟩ := List.mem_mapIdx.mp hm
    exact ⟨i, items[i], List.getElem?_eq_getElem hi, hx⟩
  · rintro ⟨i, item, hitem, hx⟩
    obtain ⟨hi, rfl⟩ := List.getElem?_eq_some_iff.mp hitem
    exact List.mem_flatMap.mpr ⟨_, List.mem_mapIdx.mpr ⟨i, hi, rfl⟩, hx⟩

lemma pairwise_flatMap_mapIdx
    (hown : ∀ i item, items[i]? = some item → (g (f i item)).Pairwise R)
    (hlater : ∀ i k item other, i < k → ∀ x ∈ g (f i item), ∀ y ∈ g (f k other), R x y) :
    ((items.mapIdx f).flatMap g).Pairwise R := by
  apply List.pairwise_flatMap.mpr
  constructor
  · intro found hm
    obtain ⟨i, hi, rfl⟩ := List.mem_mapIdx.mp hm
    exact hown i items[i] (List.getElem?_eq_getElem hi)
  · apply List.pairwise_iff_getElem.mpr
    intro i k hi hk hlt
    rw [List.getElem_mapIdx, List.getElem_mapIdx]
    exact hlater i k _ _ hlt

end ByIndex

/-- Two paths of fields stand in the order of the entries they lead to. -/
def EntryNotAfter (first second : String) : Prop :=
  ∀ list j l a b, first = fieldPath list j a → second = fieldPath list l b → j ≤ l

/-- Two paths of fields stand in the order of the events they lead to and, within one event, of the
entries. -/
def EventNotAfter (first second : String) : Prop :=
  ∀ i k p q, first = fieldPath "events" i p → second = fieldPath "events" k q →
    i ≤ k ∧ (i = k → EntryNotAfter p q)

lemma entryNotAfter_of_plain {first : String} (h : '[' ∉ first.toList) (second : String) :
    EntryNotAfter first second := by
  intro list j l a b hfirst
  exact absurd hfirst (ne_fieldPath h list j a)

/-- An entry of a list that lacks one of its two fields, at the path of the field. -/
inductive EntryLacks {α : Type} (list : String) (name value : α → Option String)
    (entries : List α) : String → Prop
  | name {j : Nat} {entry : α} : entries[j]? = some entry → name entry = none →
      EntryLacks list name value entries (fieldPath list j "name")
  | value {j : Nat} {entry : α} : entries[j]? = some entry → value entry = none →
      EntryLacks list name value entries (fieldPath list j "value")

/-- A field that an action needs and lacks, at its path. -/
inductive Action.Lacks : Action → String → Prop
  | clicked : Lacks (.click none) "selector"
  | changedSelector {value tagName targetType : Option String} :
      Lacks (.change none value tagName targetType) "selector"
  | changedValue {selector tagName targetType : Option String} :
      Lacks (.change selector none tagName targetType) "value"
  | changedTag {selector value targetType : Option String} :
      Lacks (.change selector value none targetType) "tagName"
  | visited : Lacks (.visit none) "href"
  | navigated : Lacks (.navigation none) "href"
  | size : Lacks (.viewport none) "value"
  | width {height : Option Binary64} : Lacks (.viewport (some ⟨none, height⟩)) "value.width"
  | height {width : Option Binary64} : Lacks (.viewport (some ⟨width, none⟩)) "value.height"
  | cookies : Lacks (.cookie none) "cookies"
  | cookieEntry {cookies : List CookieEntry} {path : String} :
      EntryLacks "cookies" CookieEntry.name CookieEntry.value cookies path →
      Lacks (.cookie (some cookies)) path
  | entries : Lacks (.storage none) "value"
  | storageEntry {entries : List StorageEntry} {path : String} :
      EntryLacks "value" StorageEntry.name StorageEntry.value entries path →
      Lacks (.storage (some entries)) path

/-- A field that an event needs and lacks, at its path. -/
inductive Event.Lacks (event : Event) : String → Prop
  | ofAction {path : String} : event.action.Lacks path → event.Lacks path
  | frameUrl {id : FrameId} : event.frameId = some id → id ≠ 0 → event.frameUrl = none →
      event.Lacks "frameUrl"

lemma mem_paths_require {path p : String} {present : Bool} :
    p ∈ (require path present).map Finding.path ↔ p = path ∧ present = false := by
  cases present <;> simp [require]

lemma mem_paths_require_isSome {α : Type} {path p : String} {field : Option α} :
    p ∈ (require path field.isSome).map Finding.path ↔ p = path ∧ field = none := by
  rw [mem_paths_require, Option.isSome_eq_false_iff, Option.isNone_iff_eq_none]

section EntryErrors
variable {α : Type} {list : String} {name value : α → Option String} {entries : List α}

/-- The errors of one entry: about its name and about its value. -/
def errorsOfEntry (list : String) (name value : α → Option String) (i : Nat) (entry : α) :
    List Finding :=
  require (fieldPath list i "name") (name entry).isSome
    ++ require (fieldPath list i "value") (value entry).isSome

lemma entryErrors_eq : entryErrors list name value entries =
    (entries.mapIdx (errorsOfEntry list name value)).flatMap id := by
  simp only [entryErrors, itemPath_name, itemPath_value, List.flatMap_id]
  rfl

lemma mem_paths_errorsOfEntry {i : Nat} {entry : α} {path : String} :
    path ∈ (errorsOfEntry list name value i entry).map Finding.path ↔
      (path = fieldPath list i "name" ∧ name entry = none) ∨
        (path = fieldPath list i "value" ∧ value entry = none) := by
  simp only [errorsOfEntry, List.map_append, List.mem_append, mem_paths_require_isSome]

lemma path_of_mem_errorsOfEntry {i : Nat} {entry : α} {error : Finding}
    (h : error ∈ errorsOfEntry list name value i entry) :
    ∃ p, error.path = fieldPath list i p ∧ '[' ∉ p.toList := by
  rcases mem_paths_errorsOfEntry.mp (List.mem_map_of_mem h) with ⟨hp, -⟩ | ⟨hp, -⟩
  · exact ⟨"name", hp, by decide⟩
  · exact ⟨"value", hp, by decide⟩

lemma mem_paths_entryErrors {path : String} :
    path ∈ (entryErrors list name value entries).map Finding.path ↔
      EntryLacks list name value entries path := by
  rw [entryErrors_eq, List.mem_map]
  constructor
  · rintro ⟨error, hm, rfl⟩
    obtain ⟨i, entry, hentry, he⟩ := mem_flatMap_mapIdx.mp hm
    rcases mem_paths_errorsOfEntry.mp (List.mem_map_of_mem he) with ⟨hp, hn⟩ | ⟨hp, hv⟩
    · exact hp ▸ .name hentry hn
    · exact hp ▸ .value hentry hv
  · intro h
    cases h with
    | name hentry hn =>
      obtain ⟨error, he, hp⟩ := List.mem_map.mp (mem_paths_errorsOfEntry.mpr (.inl ⟨rfl, hn⟩))
      exact ⟨error, mem_flatMap_mapIdx.mpr ⟨_, _, hentry, he⟩, hp⟩
    | value hentry hv =>
      obtain ⟨error, he, hp⟩ := List.mem_map.mp (mem_paths_errorsOfEntry.mpr (.inr ⟨rfl, hv⟩))
      exact ⟨error, mem_flatMap_mapIdx.mpr ⟨_, _, hentry, he⟩, hp⟩

lemma nodup_paths_entryErrors : ((entryErrors list name value entries).map Finding.path).Nodup := by
  apply List.pairwise_map.mpr
  rw [entryErrors_eq]
  apply pairwise_flatMap_mapIdx
  · intro i entry _
    have hne : fieldPath list i "name" ≠ fieldPath list i "value" := fun he =>
      absurd (fieldPath_injective he).2 (by decide)
    cases hn : name entry <;> cases hv : value entry <;>
      simp [errorsOfEntry, require, hn, hv, hne]
  · intro i k entry other hlt x hx y hy he
    obtain ⟨p, hp, -⟩ := path_of_mem_errorsOfEntry hx
    obtain ⟨q, hq, -⟩ := path_of_mem_errorsOfEntry hy
    have hik := (fieldPath_injective (hp.symm.trans (he.trans hq))).1
    omega

lemma pairwise_paths_entryErrors (hlist : '[' ∉ list.toList) :
    ((entryErrors list name value entries).map Finding.path).Pairwise EntryNotAfter := by
  have hindex {i j : Nat} {entry : α} {error : Finding} {other a : String}
      (hm : error ∈ errorsOfEntry list name value i entry)
      (hp : error.path = fieldPath other j a) : i = j := by
    obtain ⟨p, hown, hplain⟩ := path_of_mem_errorsOfEntry hm
    exact fieldPath_index_unique hlist hplain (hown.symm.trans hp)
  apply List.pairwise_map.mpr
  rw [entryErrors_eq]
  apply pairwise_flatMap_mapIdx
  · intro i entry _
    apply List.pairwise_of_forall_mem_list
    intro x hx y hy other j l a b hxp hyp
    exact Nat.le_of_eq ((hindex hx hxp).symm.trans (hindex hy hyp))
  · intro i k entry next hlt x hx y hy other j l a b hxp hyp
    rw [← hindex hx hxp, ← hindex hy hyp]
    exact Nat.le_of_lt hlt

end EntryErrors

namespace Action

theorem mem_paths_errors {action : Action} {path : String} :
    path ∈ action.errors.map Finding.path ↔ action.Lacks path := by
  constructor
  · intro h
    cases action with
    | click selector =>
      obtain ⟨rfl, rfl⟩ := mem_paths_require_isSome.mp h
      exact .clicked
    | change selector value tagName targetType =>
      simp only [errors, List.map_append, List.mem_append, mem_paths_require_isSome] at h
      rcases h with (⟨rfl, rfl⟩ | ⟨rfl, rfl⟩) | ⟨rfl, rfl⟩
      · exact .changedSelector
      · exact .changedValue
      · exact .changedTag
    | keydown selector value keyCode => cases h
    | visit href =>
      obtain ⟨rfl, rfl⟩ := mem_paths_require_isSome.mp h
      exact .visited
    | viewport size =>
      cases size with
      | none =>
        obtain ⟨rfl, -⟩ := mem_paths_require.mp h
        exact .size
      | some size =>
        obtain ⟨width, height⟩ := size
        simp only [errors, List.map_append, List.mem_append, mem_paths_require_isSome] at h
        rcases h with ⟨rfl, rfl⟩ | ⟨rfl, rfl⟩
        · exact .width
        · exact .height
    | navigation href =>
      obtain ⟨rfl, rfl⟩ := mem_paths_require_isSome.mp h
      exact .navigated
    | cookie cookies =>
      cases cookies with
      | none =>
        obtain ⟨rfl, -⟩ := mem_paths_require.mp h
        exact .cookies
      | some cookies => exact .cookieEntry (mem_paths_entryErrors.mp h)
    | storage entries =>
      cases entries with
      | none =>
        obtain ⟨rfl, -⟩ := mem_paths_require.mp h
        exact .entries
      | some entries => exact .storageEntry (mem_paths_entryErrors.mp h)
    | unknown => cases h
  · intro h
    cases h with
    | cookieEntry h => exact mem_paths_entryErrors.mpr h
    | storageEntry h => exact mem_paths_entryErrors.mpr h
    | _ => simp [errors, require]

lemma Lacks.ne_frameUrl {action : Action} {path : String} (h : action.Lacks path) :
    path ≠ "frameUrl" := by
  cases h with
  | cookieEntry h | storageEntry h => cases h <;> exact (ne_fieldPath (by decide) _ _ _).symm
  | _ => decide

lemma frameUrl_notMem_warnings (action : Action) :
    "frameUrl" ∉ action.warnings.map Finding.path := by
  cases action with
  | change selector value tagName targetType =>
    cases tagName with
    | none => exact List.not_mem_nil
    | some tagName => by_cases ht : changes tagName <;> simp [warnings, ht]
  | unknown => decide
  | _ => exact List.not_mem_nil

lemma nodup_paths (action : Action) :
    ((action.errors ++ action.warnings).map Finding.path).Nodup := by
  cases action with
  | change selector value tagName targetType =>
    cases tagName with
    | none =>
      -- There is an error about the tag, and so no warning.
      cases selector <;> cases value <;> simp [errors, warnings, require]
    | some tagName =>
      cases selector <;> cases value <;> by_cases ht : changes tagName <;>
        simp [errors, warnings, require, ht]
  | viewport size =>
    cases size with
    | none => decide
    | some size => cases hw : size.width <;> cases hh : size.height <;>
        simp [errors, warnings, require, hw, hh]
  | cookie cookies =>
    cases cookies with
    | none => decide
    | some cookies => simpa [errors, warnings] using nodup_paths_entryErrors
  | storage entries =>
    cases entries with
    | none => decide
    | some entries => simpa [errors, warnings] using nodup_paths_entryErrors
  | click field | visit field | navigation field => cases field <;> simp [errors, warnings, require]
  | keydown selector value keyCode => exact List.nodup_nil
  | unknown => decide

lemma pairwise_paths (action : Action) :
    (action.errors.map Finding.path).Pairwise EntryNotAfter := by
  have hplain (h : ∀ path, action.Lacks path → '[' ∉ path.toList) :
      (action.errors.map Finding.path).Pairwise EntryNotAfter := by
    apply List.pairwise_of_forall_mem_list
    intro first hm second _
    exact entryNotAfter_of_plain (h first (mem_paths_errors.mp hm)) second
  cases action with
  | cookie cookies =>
    cases cookies with
    | none => apply hplain; intro path h; cases h; decide
    | some cookies => exact pairwise_paths_entryErrors (by decide)
  | storage entries =>
    cases entries with
    | none => apply hplain; intro path h; cases h; decide
    | some entries => exact pairwise_paths_entryErrors (by decide)
  | _ => apply hplain; intro path h; cases h <;> decide

end Action

namespace Event

lemma mem_paths_frameErrors {event : Event} {path : String} :
    path ∈ event.frameErrors.map Finding.path ↔
      path = "frameUrl" ∧ event.frameUrl = none ∧ ∃ id, event.frameId = some id ∧ id ≠ 0 := by
  have hframe : event.frame ≠ mainFrame ↔ ∃ id, event.frameId = some id ∧ id ≠ 0 := by
    cases hid : event.frameId <;> simp [frame, mainFrame, hid]
  rw [← hframe, frameErrors]
  split_ifs with h
  · simp only [Bool.and_eq_true, bne_iff_ne, Option.isNone_iff_eq_none] at h
    simp [h.1, h.2]
  · simp only [Bool.and_eq_true, bne_iff_ne, Option.isNone_iff_eq_none, not_and] at h
    simp only [List.map_nil, List.not_mem_nil, false_iff]
    rintro ⟨-, hurl, hne⟩
    exact h hne hurl

theorem mem_paths_errors {event : Event} {path : String} :
    path ∈ event.findings.errors.map Finding.path ↔ event.Lacks path := by
  rw [findings, List.map_append, List.mem_append, mem_paths_frameErrors, Action.mem_paths_errors]
  constructor
  · rintro (⟨rfl, hurl, id, hid, hne⟩ | h)
    · exact .frameUrl hid hne hurl
    · exact .ofAction h
  · intro h
    cases h with
    | ofAction h => exact .inr h
    | frameUrl hid hne hurl => exact .inl ⟨rfl, hurl, _, hid, hne⟩

lemma nodup_paths (event : Event) :
    ((event.findings.errors ++ event.findings.warnings).map Finding.path).Nodup := by
  have hframe : (event.frameErrors.map Finding.path).Nodup := by
    rw [frameErrors]
    split_ifs <;> simp
  rw [findings, List.append_assoc, List.map_append]
  apply List.nodup_append.mpr
  refine ⟨hframe, event.action.nodup_paths, ?_⟩
  rintro path hpath other hother rfl
  obtain ⟨rfl, -⟩ := mem_paths_frameErrors.mp hpath
  rw [List.map_append, List.mem_append, Action.mem_paths_errors] at hother
  rcases hother with herror | hwarning
  · exact herror.ne_frameUrl rfl
  · exact event.action.frameUrl_notMem_warnings hwarning

lemma pairwise_paths (event : Event) :
    (event.findings.errors.map Finding.path).Pairwise EntryNotAfter := by
  have hframe (first : String) (hm : first ∈ event.frameErrors.map Finding.path)
      (second : String) : EntryNotAfter first second := by
    obtain ⟨rfl, -⟩ := mem_paths_frameErrors.mp hm
    exact entryNotAfter_of_plain (by decide) second
  rw [findings, List.map_append]
  apply List.pairwise_append.mpr
  refine ⟨?_, event.action.pairwise_paths, ?_⟩
  · exact List.pairwise_of_forall_mem_list fun first hm second _ => hframe first hm second
  · exact fun first hm second _ => hframe first hm second

lemma path_of_mem_inside {i : Nat} {found : List Finding} {finding : Finding}
    (h : finding ∈ found.map (.inside (itemPath "events" i))) :
    ∃ inner ∈ found, finding.path = fieldPath "events" i inner.path := by
  obtain ⟨inner, hm, rfl⟩ := List.mem_map.mp h
  exact ⟨inner, hm, Finding.path_inside _ _ _⟩

section Recording
variable {events : List Event}

/-- The errors of a recording are at the paths of what its events lack, below the indices of the events. -/
theorem mem_paths_errors_allFindings {path : String} :
    path ∈ (allFindings events).errors.map Finding.path ↔ ∃ i event field,
      events[i]? = some event ∧ event.Lacks field ∧ path = fieldPath "events" i field := by
  rw [errors_allFindings, List.mem_map]
  constructor
  · rintro ⟨error, hm, rfl⟩
    obtain ⟨i, event, hevent, he⟩ := mem_flatMap_mapIdx.mp hm
    obtain ⟨inner, hinner, hp⟩ := path_of_mem_inside he
    exact ⟨i, event, _, hevent, mem_paths_errors.mp (List.mem_map_of_mem hinner), hp⟩
  · rintro ⟨i, event, field, hevent, hlacks, rfl⟩
    obtain ⟨inner, hinner, rfl⟩ := List.mem_map.mp (mem_paths_errors.mpr hlacks)
    exact ⟨inner.inside (itemPath "events" i),
      mem_flatMap_mapIdx.mpr ⟨i, event, hevent, List.mem_map_of_mem hinner⟩,
      Finding.path_inside _ _ _⟩

theorem nodup_paths_allFindings :
    (((allFindings events).errors ++ (allFindings events).warnings).map Finding.path).Nodup := by
  rw [allFindings_eq]
  refine (List.Perm.nodup_iff ((List.flatMap_append_perm _ _ _).map _)).mpr ?_
  apply List.pairwise_map.mpr
  apply pairwise_flatMap_mapIdx
  · intro i event _
    rw [Findings.errors_inside, Findings.warnings_inside, ← List.map_append]
    refine List.pairwise_map.mpr ((List.pairwise_map.mp event.nodup_paths).imp ?_)
    intro first second hne he
    rw [Finding.path_inside, Finding.path_inside] at he
    exact hne (fieldPath_injective he).2
  · intro i k event other hlt x hx y hy he
    rw [Findings.errors_inside, Findings.warnings_inside, ← List.map_append] at hx hy
    obtain ⟨first, -, hfirst⟩ := path_of_mem_inside hx
    obtain ⟨second, -, hsecond⟩ := path_of_mem_inside hy
    have hik := (fieldPath_injective (hfirst.symm.trans (he.trans hsecond))).1
    exact absurd hik (Nat.ne_of_lt hlt)

theorem pairwise_paths_allFindings :
    ((allFindings events).errors.map Finding.path).Pairwise EventNotAfter := by
  rw [errors_allFindings]
  apply List.pairwise_map.mpr
  apply pairwise_flatMap_mapIdx
  · intro i event _
    refine List.pairwise_map.mpr ((List.pairwise_map.mp event.pairwise_paths).imp ?_)
    intro first second hnot j k p q hp hq
    rw [Finding.path_inside] at hp hq
    obtain ⟨rfl, rfl⟩ := fieldPath_injective hp
    obtain ⟨rfl, rfl⟩ := fieldPath_injective hq
    exact ⟨Nat.le_refl _, fun _ => hnot⟩
  · intro i k event other hlt x hx y hy j l p q hp hq
    obtain ⟨first, -, hfirst⟩ := path_of_mem_inside hx
    obtain ⟨second, -, hsecond⟩ := path_of_mem_inside hy
    obtain ⟨rfl, -⟩ := fieldPath_injective (hfirst.symm.trans hp)
    obtain ⟨rfl, -⟩ := fieldPath_injective (hsecond.symm.trans hq)
    exact ⟨Nat.le_of_lt hlt, fun he => absurd he (Nat.ne_of_lt hlt)⟩

end Recording

/-- There is an error at a path exactly if an event lacks the field there; no path comes twice, and they stand
in order. -/
theorem errors_pinpoint_missing_fields (events : List Event) :
    let found := allFindings events
    (∀ i field, fieldPath "events" i field ∈ found.errors.map Finding.path ↔
      ∃ event, events[i]? = some event ∧ event.Lacks field) ∧
    (∀ error ∈ found.errors, ∃ i field, error.path = fieldPath "events" i field) ∧
    ((found.errors ++ found.warnings).map Finding.path).Nodup ∧
    (found.errors.map Finding.path).Pairwise EventNotAfter := by
  intro found
  refine ⟨?_, ?_, nodup_paths_allFindings, pairwise_paths_allFindings⟩
  · intro i field
    rw [mem_paths_errors_allFindings]
    constructor
    · rintro ⟨k, event, other, hevent, hlacks, hp⟩
      obtain ⟨rfl, rfl⟩ := fieldPath_injective hp
      exact ⟨event, hevent, hlacks⟩
    · rintro ⟨event, hevent, hlacks⟩
      exact ⟨i, event, field, hevent, hlacks, rfl⟩
  · intro error hm
    obtain ⟨i, -, field, -, -, hp⟩ := mem_paths_errors_allFindings.mp (List.mem_map_of_mem hm)
    exact ⟨i, field, hp⟩

theorem errors_pinpoint_second_cookie :
    let events : List Event :=
      [.onMainPage (.visit none), .onMainPage (.change (some "#a") (some "v") (some "P") none),
        ⟨.cookie (some [⟨some "a", none, []⟩, ⟨none, none, []⟩]), some 12, none⟩]
    let found := allFindings events
    (found.errors ++ found.warnings).map Finding.path =
      ["events[0].href", "events[2].frameUrl", "events[2].cookies[0].value",
        "events[2].cookies[1].name", "events[2].cookies[1].value", "events[1].tagName"] ∧
    (∃ event, events[2]? = some event ∧ event.Lacks "cookies[1].name") ∧
    (∃ i field, "events[2].cookies[1].name" = fieldPath "events" i field) ∧
    ((found.errors ++ found.warnings).map Finding.path).Nodup ∧
    (found.errors.map Finding.path).Pairwise EventNotAfter := by
  intro events found
  obtain ⟨hlacks, hbelow, hdistinct, horder⟩ := errors_pinpoint_missing_fields events
  refine ⟨by decide +kernel, (hlacks 2 "cookies[1].name").mp (by decide +kernel), ?_, hdistinct, horder⟩
  exact hbelow ⟨"events[2].cookies[1].name", "missing required field"⟩ (by decide +kernel)

end Event

end Retrace
