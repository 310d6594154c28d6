import Mathlib.Data.List.Induction
import Mathlib.Data.List.Nodup
import Mathlib.Tactic.Common
import Retrace.Json.Value

/-! Members of objects: merging gives every key one member, at its first place and with its last value, and
changes nothing where every key has one already, in an object and in all the values inside it. -/
namespace Retrace.Json

namespace Members

def keys (members : Members) : List String := members.map Prod.fst

@[simp] lemma keys_nil : keys [] = [] := rfl

@[simp] lemma keys_cons (m : String × Value) (rest : Members) :
    keys (m :: rest) = m.1 :: keys rest := rfl

@[simp] lemma keys_append (first second : Members) :
    keys (first ++ second) = keys first ++ keys second := List.map_append

/-- Each of the given keys occurs at most once. -/
def AtMostOnce (names : List String) (members : Members) : Prop :=
  ∀ key ∈ names, (keys members).count key ≤ 1

lemma AtMostOnce.of_nodup {members : Members} (h : (keys members).Nodup) (names : List String) :
    AtMostOnce names members :=
  fun key _ => List.nodup_iff_count_le_one.mp h key

lemma lookup_eq_none {key : String} {members : Members} :
    members.lookup key = none ↔ key ∉ keys members := by
  simp only [List.lookup_eq_none_iff, bne_iff_ne, keys, List.mem_map, not_exists, not_and]
  exact ⟨fun h m hm he => h m hm he.symm, fun h m hm he => h m hm he.symm⟩

lemma mem_of_lookup {key : String} {value : Value} {members : Members}
    (h : members.lookup key = some value) : (key, value) ∈ members := by
  obtain ⟨before, after, rfl, -⟩ := List.lookup_eq_some_iff.mp h
  exact List.mem_append_right before List.mem_cons_self

lemma lookup_filter {p : String → Bool} {key : String} (h : p key) (members : Members) :
    (members.filter fun m => p m.1).lookup key = members.lookup key := by
  induction members with
  | nil => rfl
  | cons m rest ih =>
    obtain ⟨k, v⟩ := m
    by_cases hk : key = k
    · subst hk
      simp [h]
    · rw [List.filter_cons]
      split_ifs <;> simp [List.lookup_cons, beq_false_of_ne hk, ih]

lemma keys_filter_sublist (p : String × Value → Bool) (members : Members) :
    (keys (members.filter p)).Sublist (keys members) :=
  List.filter_sublist.map Prod.fst

lemma AtMostOnce.filter {names : List String} {members : Members} (h : AtMostOnce names members)
    (p : String × Value → Bool) : AtMostOnce names (members.filter p) :=
  fun key hk => Nat.le_trans ((keys_filter_sublist p members).count_le key) (h key hk)

lemma filter_eq_of_count {key : String} {members : Members} (h : (keys members).count key ≤ 1) :
    members.filter (·.1 == key) = (members.lookup key).toList.map (key, ·) := by
  induction members with
  | nil => rfl
  | cons m rest ih =>
    obtain ⟨k, v⟩ := m
    by_cases hk : k = key
    · subst hk
      have hrest : (keys rest).count k = 0 := by simpa using h
      have hnone : rest.lookup k = none := lookup_eq_none.mpr (List.count_eq_zero.mp hrest)
      have hfilter : rest.filter (·.1 == k) = [] := by
        rw [ih (by omega), hnone]
        rfl
      simp [hfilter]
    · rw [List.filter_cons_of_neg (by simpa using hk), ih (by simpa [List.count_cons, hk] using h)]
      simp [List.lookup_cons, beq_false_of_ne (Ne.symm hk)]

lemma mem_put {key : String} {value : Value} {members : Members} {m : String × Value}
    (h : m ∈ put key value members) : m = (key, value) ∨ m ∈ members := by
  induction members with
  | nil => exact .inl (List.mem_singleton.mp h)
  | cons first rest ih =>
    obtain ⟨k, v⟩ := first
    simp only [put] at h
    split_ifs at h
    · exact (List.mem_cons.mp h).imp_right (List.mem_cons_of_mem _)
    · rcases List.mem_cons.mp h with rfl | h
      · exact .inr List.mem_cons_self
      · exact (ih h).imp_right (List.mem_cons_of_mem _)

lemma keys_put (key : String) (value : Value) (members : Members) :
    keys (put key value members) =
      if key ∈ keys members then keys members else keys members ++ [key] := by
  induction members with
  | nil => rfl
  | cons first rest ih =>
    obtain ⟨k, v⟩ := first
    simp only [put]
    split_ifs with hk hm hm
    · simp [hk]
    · simp [hk] at hm
    · simp_all [Ne.symm hk]
    · simp_all [Ne.symm hk]

lemma nodup_keys_put {members : Members} (h : (keys members).Nodup) (key : String) (value : Value) :
    (keys (put key value members)).Nodup := by
  rw [keys_put]
  split_ifs with hm
  · exact h
  · refine List.nodup_append.mpr ⟨h, List.nodup_singleton key, fun k hk k' hk' he => hm ?_⟩
    rwa [← List.mem_singleton.mp hk', ← he]

lemma put_of_not_mem {key : String} {members : Members} (h : key ∉ keys members) (value : Value) :
    put key value members = members ++ [(key, value)] := by
  induction members with
  | nil => rfl
  | cons first rest ih =>
    have hk : first.1 ≠ key := fun he => h (by simp [he])
    have hrest : key ∉ keys rest := fun hm => h (by simp [hm])
    simp only [put, if_neg hk, ih hrest, List.cons_append]

theorem nodup_keys_merge (members : Members) : (keys (merge members)).Nodup := by
  have h : ∀ done : Members, (keys done).Nodup →
      (keys (members.foldl (fun done m => put m.1 m.2 done) done)).Nodup := by
    induction members with
    | nil => exact fun _ h => h
    | cons m rest ih => exact fun done h => ih _ (nodup_keys_put h m.1 m.2)
  exact h [] List.nodup_nil

theorem mem_merge {members : Members} {m : String × Value} (h : m ∈ merge members) :
    m ∈ members := by
  have hfold : ∀ done : Members, m ∈ members.foldl (fun done m => put m.1 m.2 done) done →
      m ∈ done ∨ m ∈ members := by
    clear h
    induction members with
    | nil => exact fun _ h => .inl h
    | cons first rest ih =>
      intro done hd
      rcases ih _ hd with hd | hd
      · rcases mem_put hd with rfl | hd
        · exact .inr List.mem_cons_self
        · exact .inl hd
      · exact .inr (List.mem_cons_of_mem _ hd)
  simpa using hfold [] h

theorem merge_of_nodup {members : Members} (h : (keys members).Nodup) : merge members = members := by
  have hfold : ∀ done : Members, (keys (done ++ members)).Nodup →
      members.foldl (fun done m => put m.1 m.2 done) done = done ++ members := by
    induction members with
    | nil => simp
    | cons m rest ih =>
      intro done hd
      have hm : m.1 ∉ keys done := by
        simp only [keys_append, keys_cons, List.nodup_append] at hd
        exact fun hm => hd.2.2 _ hm _ List.mem_cons_self rfl
      rw [List.foldl_cons, put_of_not_mem hm, ih (List.nodup_cons.mp h).2 _ (by simpa using hd)]
      simp
  exact hfold [] h

lemma lookup_put (key : String) (value : Value) (members : Members) (other : String) :
    (put key value members).lookup other = if other = key then some value else members.lookup other := by
  induction members with
  | nil =>
    rw [put, List.lookup_cons]
    by_cases h : other = key
    · simp [h]
    · simp [h, beq_false_of_ne h]
  | cons first rest ih =>
    obtain ⟨k, v⟩ := first
    by_cases hk : k = key
    · subst hk
      by_cases h : other = k
      · simp [put, h]
      · simp [put, List.lookup_cons, h, beq_false_of_ne h]
    · rw [put, if_neg hk, List.lookup_cons, List.lookup_cons, ih]
      by_cases h : other = key
      · subst h
        simp [beq_false_of_ne (Ne.symm hk)]
      · simp [h]

lemma merge_concat (members : Members) (m : String × Value) :
    merge (members ++ [m]) = put m.1 m.2 (merge members) :=
  List.foldl_concat ..

/-- Merging keeps every key, at its first place. -/
theorem keys_merge (members : Members) : keys (merge members) = (keys members).eraseDups := by
  induction members using List.reverseRecOn with
  | nil => rfl
  | append_singleton members m ih =>
    rw [merge_concat, keys_put, ih, keys_append, List.eraseDups_append]
    by_cases hm : m.1 ∈ keys members <;> simp [List.removeAll, List.eraseDups_cons, hm]

/-- Merging keeps of every key its last value. -/
theorem lookup_merge (members : Members) (key : String) :
    (merge members).lookup key = members.reverse.lookup key := by
  induction members using List.reverseRecOn with
  | nil => rfl
  | append_singleton members m ih =>
    rw [merge_concat, lookup_put, ih, List.reverse_concat, List.lookup_cons]
    by_cases h : key = m.1
    · simp [h]
    · simp [h, beq_false_of_ne h]

end Members

namespace Value

@[elab_as_elim]
theorem induction {p : Value → Prop} (scalar : ∀ s, p (.scalar s))
    (array : ∀ items, (∀ v ∈ items, p v) → p (.array items))
    (object : ∀ members : Members, (∀ m ∈ members, p m.2) → p (.object members)) : ∀ v, p v
  | .scalar s => scalar s
  | .array items => array items fun v _ => induction scalar array object v
  | .object members => object members fun m _ => induction scalar array object m.2
termination_by v => sizeOf v
decreasing_by
  · have := List.sizeOf_lt_of_mem ‹_›
    simp only [Value.array.sizeOf_spec]
    omega
  · obtain ⟨key, value⟩ := m
    have := List.sizeOf_lt_of_mem ‹_›
    simp only [Value.object.sizeOf_spec, Prod.mk.sizeOf_spec] at *
    omega

/-- Values in which no object names a key twice. -/
inductive KeysDistinct : Value → Prop
  | scalar (s : Scalar) : KeysDistinct (.scalar s)
  | array {items : List Value} (h : ∀ v ∈ items, KeysDistinct v) : KeysDistinct (.array items)
  | object {members : Members} (hkeys : (Members.keys members).Nodup)
      (h : ∀ m ∈ members, KeysDistinct m.2) : KeysDistinct (.object members)

@[simp] lemma keysDistinct_scalar (s : Scalar) : (scalar s).KeysDistinct := .scalar s

@[simp] lemma keysDistinct_array {items : List Value} :
    (array items).KeysDistinct ↔ ∀ v ∈ items, v.KeysDistinct :=
  ⟨fun h => by cases h with | array h => exact h, .array⟩

@[simp] lemma keysDistinct_object {members : Members} :
    (object members).KeysDistinct ↔
      (Members.keys members).Nodup ∧ ∀ m ∈ members, m.2.KeysDistinct :=
  ⟨fun h => by cases h with | object hkeys h => exact ⟨hkeys, h⟩, fun h => .object h.1 h.2⟩

lemma mergedItems_eq_map (items : List Value) : mergedItems items = items.map merged := by
  induction items with
  | nil => rfl
  | cons v rest ih => rw [mergedItems, ih, List.map_cons]

lemma mergedMembers_eq_map (members : Members) :
    mergedMembers members = members.map fun m => (m.1, merged m.2) := by
  induction members with
  | nil => rfl
  | cons m rest ih => rw [mergedMembers, ih, List.map_cons]

lemma keysDistinct_of_mem_merge {members : Members} (h : ∀ m ∈ members, (merged m.2).KeysDistinct) :
    ∀ m ∈ Members.merge (mergedMembers members), m.2.KeysDistinct := by
  intro m hm
  rw [mergedMembers_eq_map] at hm
  obtain ⟨m, hmem, rfl⟩ := List.mem_map.mp (Members.mem_merge hm)
  exact h m hmem

theorem keysDistinct_merged (v : Value) : v.merged.KeysDistinct := by
  induction v using Value.induction with
  | scalar s => exact .scalar s
  | array items ih =>
    rw [merged, mergedItems_eq_map]
    exact .array (List.forall_mem_map.mpr ih)
  | object members ih =>
    rw [merged]
    exact .object (Members.nodup_keys_merge _) (keysDistinct_of_mem_merge ih)

lemma mergedMembers_of_fixed {members : Members} (h : ∀ m ∈ members, merged m.2 = m.2) :
    mergedMembers members = members := by
  rw [mergedMembers_eq_map]
  exact (List.map_congr_left fun m hm => by rw [h m hm]; rfl).trans (List.map_id members)

theorem KeysDistinct.merged_eq {v : Value} (h : v.KeysDistinct) : v.merged = v := by
  induction h with
  | scalar s => rfl
  | array h ih =>
    rw [merged, mergedItems_eq_map]
    exact congrArg Value.array ((List.map_congr_left ih).trans (List.map_id _))
  | object hkeys h ih =>
    rw [merged, mergedMembers_of_fixed ih, Members.merge_of_nodup hkeys]

lemma keys_mergedMembers (members : Members) :
    Members.keys (mergedMembers members) = Members.keys members := by
  rw [mergedMembers_eq_map, Members.keys, List.map_map]
  rfl

lemma lookup_mergedMembers (members : Members) (key : String) :
    (mergedMembers members).lookup key = (members.lookup key).map merged := by
  induction members with
  | nil => rfl
  | cons m rest ih =>
    rw [mergedMembers, List.lookup_cons, List.lookup_cons, ih]
    split <;> rfl

lemma reverse_mergedMembers (members : Members) :
    (mergedMembers members).reverse = mergedMembers members.reverse := by
  rw [mergedMembers_eq_map, mergedMembers_eq_map, List.map_reverse]

/-- `v.MergesTo w`: in `w` every key of every object of `v` stands once, at its first place and with its last
value. -/
inductive MergesTo : Value → Value → Prop
  | scalar (s : Scalar) : MergesTo (.scalar s) (.scalar s)
  | array {items kept : List Value} (h : List.Forall₂ MergesTo items kept) :
    MergesTo (.array items) (.array kept)
  | object {members kept : Members} (hkeys : Members.keys kept = (Members.keys members).eraseDups)
      (h : ∀ key v w, members.reverse.lookup key = some v → kept.lookup key = some w → MergesTo v w) :
    MergesTo (.object members) (.object kept)

theorem mergesTo_merged (v : Value) : v.MergesTo v.merged := by
  induction v using Value.induction with
  | scalar s => exact .scalar s
  | array items ih =>
    rw [merged, mergedItems_eq_map]
    exact .array (List.forall₂_map_right_iff.mpr (List.forall₂_same.mpr ih))
  | object members ih =>
    rw [merged]
    apply MergesTo.object
    · rw [Members.keys_merge, keys_mergedMembers]
    · intro key v w hv hw
      rw [Members.lookup_merge, reverse_mergedMembers, lookup_mergedMembers, hv] at hw
      obtain rfl := Option.some.inj hw
      exact ih (key, v) (List.mem_reverse.mp (Members.mem_of_lookup hv))

end Value
end Retrace.Json
