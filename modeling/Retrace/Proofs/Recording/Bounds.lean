import Retrace.Proofs.Json.Bounds
import Retrace.Proofs.Json.Members
import Retrace.Proofs.Recording.Fields

/-! What a recording that has been read can hold. Whole numbers fit 64 bits, and the options of a cookie
are merged, are neither its name nor its value, and nest no deeper than the text around them allowed. -/
namespace Retrace
open Json (Value Members Cause Fault Node Key)
open Json.Members (keys)

lemma Json.Value.Within.merged {depth : Nat} {v : Value} (h : v.Within depth) :
    v.merged.Within depth := by
  induction h with
  | scalar h => exact .scalar h
  | array h ih =>
    rw [Value.merged, mergedItems_eq_map]
    exact .array (List.forall_mem_map.mpr ih)
  | object h ih =>
    rw [Value.merged, mergedMembers_eq_map]
    apply Value.Within.object
    intro m hm
    obtain ⟨m, hmem, rfl⟩ := List.mem_map.mp (Json.Members.mem_merge hm)
    exact ih m hmem

lemma Field.wholeOfDouble_lt {x : Binary64} {n : Nat} (h : wholeOfDouble x = some n) :
    n < twoTo 64 := by
  have hmax : maxWhole < twoTo 64 := by decide
  cases x with
  | finite negative size =>
    simp only [wholeOfDouble] at h
    split_ifs at h
    · obtain rfl := Option.some.inj h
      exact twoTo_pos 64
    · obtain rfl := Option.some.inj h
      exact Nat.lt_of_le_of_lt (Nat.min_le_right _ _) hmax
  | _ => cases h

lemma Field.whole_lt {v : Value} {depth n : Nat} (hin : v.Within depth) (h : whole v = some n) :
    n < twoTo 64 := by
  unfold whole at h
  split at h
  · obtain rfl := Option.some.inj h
    cases hin with
    | scalar hin => exact Int.ofNat_lt.mp hin.2
  · obtain ⟨x, -, hx⟩ := Option.bind_eq_some_iff.mp h
    exact wholeOfDouble_lt hx

/-- A cookie whose options can be written beside its name and its value. -/
structure CookieEntry.Settled (depth : Nat) (cookie : CookieEntry) : Prop where
  nodup : (keys cookie.options).Nodup
  name_not_mem : "name" ∉ keys cookie.options
  value_not_mem : "value" ∉ keys cookie.options
  distinct : ∀ m ∈ cookie.options, m.2.KeysDistinct
  within : ∀ m ∈ cookie.options, m.2.Within depth

/-- An action whose numbers fit 64 bits and whose cookies are settled. -/
def Action.Settled (depth : Nat) : Action → Prop
  | .keydown _ _ keyCode => ∀ n, keyCode = some n → n < twoTo 64
  | .cookie cookies => ∀ list, cookies = some list → ∀ cookie ∈ list, cookie.Settled depth
  | _ => True

structure Event.Settled (depth : Nat) (event : Event) : Prop where
  frameId : ∀ n, event.frameId = some n → n < twoTo 64
  action : event.action.Settled depth

lemma ownMembers_go_eq_ok {names seen : List String} {members own : Members}
    (h : ownMembers.go names seen members = .ok own) :
    own = members.filter fun m => names.contains m.1 := by
  induction members generalizing seen own with
  | nil => exact (Except.ok.inj h).symm
  | cons m rest ih =>
    obtain ⟨k, v⟩ := m
    rw [ownMembers.go] at h
    split_ifs at h with hk hseen
    · obtain ⟨rest', hrest, rfl⟩ := map_eq_ok.mp h
      rw [ih hrest, List.filter_cons, if_pos hk]
    · rw [ih h, List.filter_cons, if_neg hk]

lemma ownMembers_eq_ok {names : List String} {members own : Members}
    (h : ownMembers names members = .ok own) : own = members.filter fun m => names.contains m.1 :=
  ownMembers_go_eq_ok h

namespace CookieEntry

theorem settled_ofValue {v : Value} {cookie : CookieEntry} {depth : Nat} (hin : v.Within (depth + 1))
    (h : ofValue v = .ok cookie) : cookie.Settled depth := by
  cases hin with
  | @object _ members hin =>
    obtain ⟨own, -, he⟩ := bind_eq_ok.mp h
    obtain rfl := pure_eq_ok.mp he
    have hmem {m : String × Value} (hm : m ∈ Json.Members.merge (Value.mergedMembers
        (members.filter fun m => m.1 != "name" && m.1 != "value"))) :
        ∃ m' ∈ members, m = (m'.1, m'.2.merged) ∧ m'.1 ≠ "name" ∧ m'.1 ≠ "value" := by
      have hmerged := Json.Members.mem_merge hm
      rw [Value.mergedMembers_eq_map] at hmerged
      obtain ⟨m', hm', he⟩ := List.mem_map.mp hmerged
      obtain ⟨hmember, hkey⟩ := List.mem_filter.mp hm'
      exact ⟨m', hmember, he.symm, by simpa using hkey⟩
    refine ⟨Json.Members.nodup_keys_merge _, ?_, ?_, ?_, ?_⟩
    · intro hkey
      obtain ⟨m, hm, hk⟩ := List.mem_map.mp hkey
      obtain ⟨m', -, rfl, hname, -⟩ := hmem hm
      exact hname hk
    · intro hkey
      obtain ⟨m, hm, hk⟩ := List.mem_map.mp hkey
      obtain ⟨m', -, rfl, -, hvalue⟩ := hmem hm
      exact hvalue hk
    · exact Value.keysDistinct_of_mem_merge fun m _ => Value.keysDistinct_merged m.2
    · intro m hm
      obtain ⟨m', hm', rfl, -⟩ := hmem hm
      exact (hin m' hm').merged
  | scalar hin => simp [ofValue] at h
  | array hin => simp [ofValue] at h

lemma settled_listOfValue? {v : Value} {cookies : Option (List CookieEntry)} {depth : Nat}
    (hin : v.Within (depth + 2)) (h : listOfValue? v = .ok cookies) :
    ∀ list, cookies = some list → ∀ cookie ∈ list, cookie.Settled depth := by
  rintro list rfl cookie hcookie
  unfold listOfValue? at h
  split at h
  · cases h
  · cases hin with
    | array hin =>
      obtain ⟨list, hlist, he⟩ := map_eq_ok.mp h
      obtain rfl := Option.some.inj he
      obtain ⟨item, hitem, hread⟩ := exists_left_of_mem (mapM_eq_ok.mp hlist) hcookie
      exact settled_ofValue (hin item hitem) hread
  · cases h

end CookieEntry

namespace Action

theorem settled_ofMembers {kind : Kind} {members : Members} {action : Action} {depth : Nat}
    (hin : ∀ m ∈ members, m.2.Within (depth + 2)) (h : ofMembers kind members = .ok action) :
    action.Settled depth := by
  cases kind with
  | keydown =>
    obtain ⟨own, hown, he⟩ := bind_eq_ok.mp h
    obtain rfl := pure_eq_ok.mp he
    intro n hn
    obtain ⟨v, hv, hwhole⟩ := Option.bind_eq_some_iff.mp hn
    rw [ownMembers_eq_ok hown] at hv
    have hmem := List.mem_of_mem_filter (Json.Members.mem_of_lookup hv)
    exact Field.whole_lt (hin _ hmem) hwhole
  | cookie =>
    obtain ⟨cookies, hc, rfl⟩ := map_eq_ok.mp h
    obtain ⟨cookies', hread, hrest⟩ := bind_eq_ok.mp hc
    obtain ⟨own, -, he⟩ := bind_eq_ok.mp hrest
    obtain rfl := pure_eq_ok.mp he
    refine CookieEntry.settled_listOfValue? ?_ hread
    cases hv : members.lookup "cookies" with
    | none => exact .scalar trivial
    | some v => exact hin _ (Json.Members.mem_of_lookup hv)
  | viewport | storage =>
    obtain ⟨result, -, rfl⟩ := map_eq_ok.mp h
    trivial
  | unknown =>
    obtain rfl := Except.ok.inj h
    trivial
  | click | change | visit | navigation =>
    obtain ⟨own, -, he⟩ := bind_eq_ok.mp h
    obtain rfl := pure_eq_ok.mp he
    trivial

lemma mem_of_splitKind {members fields : Members} {kind : Kind}
    (h : splitKind members = .ok (kind, fields)) : ∀ m ∈ fields, m ∈ members := by
  intro m hm
  unfold splitKind at h
  split at h
  · cases h
  · obtain ⟨kind', -, he⟩ := bind_eq_ok.mp h
    split_ifs at he
    · obtain ⟨rfl, rfl⟩ := Prod.mk.inj (pure_eq_ok.mp he)
      exact List.mem_of_mem_filter hm

lemma settled_ofEventMembers {members : Members} {action : Action} {depth : Nat}
    (hin : ∀ m ∈ members, m.2.Within (depth + 2)) (h : ofEventMembers members = .ok action) :
    action.Settled depth := by
  obtain ⟨⟨kind, fields⟩, hsplit, hread⟩ := bind_eq_ok.mp h
  exact settled_ofMembers (fun m hm => hin m (mem_of_splitKind hsplit m hm)) hread

end Action

namespace Event

lemma exists_node_of_gather {nodes : List (Key × Node)} {seen result : Partial}
    (h : gather seen nodes = .ok result) :
    ∀ m ∈ result.others, m ∈ seen.others ∨ ∃ node ∈ nodes, node.2.value = .ok m.2 := by
  induction nodes generalizing seen with
  | nil =>
    obtain rfl := Except.ok.inj h
    exact fun m hm => .inl hm
  | cons node rest ih =>
    obtain ⟨key, node⟩ := node
    have hlater {seen : Partial} (h : gather seen rest = .ok result) (m : String × Value)
        (hm : m ∈ result.others) :
        m ∈ seen.others ∨ ∃ n ∈ (key, node) :: rest, n.2.value = .ok m.2 := by
      rcases ih h m hm with hseen | ⟨n, hn, hv⟩
      · exact .inl hseen
      · exact .inr ⟨n, List.mem_cons_of_mem _ hn, hv⟩
    rw [gather] at h
    split_ifs at h
    · obtain ⟨v, -, h⟩ := bind_eq_ok.mp h
      have hothers := hlater h
      exact hothers
    · obtain ⟨v, -, h⟩ := bind_eq_ok.mp h
      have hothers := hlater h
      exact hothers
    · obtain ⟨v, hv, h⟩ := bind_eq_ok.mp h
      intro m hm
      rcases hlater h m hm with hseen | hnode
      · rcases List.mem_cons.mp hseen with rfl | hseen
        · exact .inr ⟨_, List.mem_cons_self, hv⟩
        · exact .inl hseen
      · exact .inr hnode

lemma frameId_lt_of_gather {nodes : List (Key × Node)} {seen result : Partial} {depth : Nat}
    (hnodes : ∀ m ∈ nodes, m.2.Within depth)
    (hid : ∀ n, seen.frameId = some (some n) → n < twoTo 64) (h : gather seen nodes = .ok result) :
    ∀ n, result.frameId = some (some n) → n < twoTo 64 := by
  induction nodes generalizing seen with
  | nil =>
    obtain rfl := Except.ok.inj h
    exact hid
  | cons node rest ih =>
    obtain ⟨key, node⟩ := node
    obtain ⟨hnode, hrest⟩ := List.forall_mem_cons.mp hnodes
    rw [gather] at h
    split_ifs at h
    · obtain ⟨v, hv, h⟩ := bind_eq_ok.mp h
      exact ih hrest (fun n hn => Field.whole_lt (hnode.value hv) (Option.some.inj hn)) h
    · obtain ⟨v, -, h⟩ := bind_eq_ok.mp h
      refine ih hrest ?_ h
      exact hid
    · obtain ⟨v, -, h⟩ := bind_eq_ok.mp h
      refine ih hrest ?_ h
      exact hid

lemma exists_members_of_ofNode {node : Node} {event : Event} (h : ofNode node = .ok event) :
    ∃ start nodes stop seen, node = .object start nodes stop ∧
      gather ⟨none, none, []⟩ nodes = .ok seen ∧ event.frameId = seen.frameId.join ∧
      Action.ofEventMembers seen.others.reverse = .ok event.action ∧
      ∀ m ∈ seen.others, ∃ n ∈ nodes, n.2.value = .ok m.2 := by
  cases node with
  | object start nodes stop =>
    obtain ⟨seen, hseen, h⟩ := bind_eq_ok.mp h
    obtain ⟨n, -, h⟩ := bind_eq_ok.mp h
    obtain ⟨action, haction, he⟩ := bind_eq_ok.mp h
    obtain rfl := pure_eq_ok.mp he
    refine ⟨start, nodes, stop, seen, rfl, hseen, rfl, mapError_eq_ok.mp haction, ?_⟩
    intro m hm
    exact (exists_node_of_gather hseen m hm).resolve_left List.not_mem_nil
  | _ => simp [ofNode] at h

theorem settled_ofNode {node : Node} {event : Event} {depth : Nat} (hin : node.Within (depth + 3))
    (h : ofNode node = .ok event) : event.Settled depth := by
  obtain ⟨start, nodes, stop, seen, rfl, hseen, hframe, haction, horigin⟩ :=
    exists_members_of_ofNode h
  cases hin with
  | object hin start stop =>
    have hid := frameId_lt_of_gather hin (by simp) hseen
    refine ⟨fun n hn => hid n ?_, ?_⟩
    · simpa [Option.join_eq_some_iff, hframe] using hn
    · apply Action.settled_ofEventMembers _ haction
      intro m hm
      obtain ⟨node, hnode, hv⟩ := horigin m (List.mem_reverse.mp hm)
      exact (hin node hnode).value hv

lemma exists_items_of_readList {text : String} {events : List Event} (h : readList text = .ok events) :
    ∃ start items stop, (Json.Document.ofText text.toList).root = .array start items stop ∧
      List.Forall₂ (fun node event => ofNode node = .ok event) items events := by
  have hroot := (Json.readText_eq_ok.mp h).2
  generalize (Json.Document.ofText text.toList).root = root at hroot
  cases root with
  | array start items stop =>
    obtain ⟨events', hevents, hrest⟩ := bind_eq_ok.mp hroot
    obtain ⟨n, -, he⟩ := bind_eq_ok.mp hrest
    obtain rfl := pure_eq_ok.mp he
    exact ⟨start, items, stop, rfl, mapM_eq_ok.mp hevents⟩
  | _ => simp [listOfNode] at hroot

/-- How deep the options of a cookie may nest inside a recording: a list, an event, the list of its
cookies and a cookie are around them. -/
def optionDepth : Nat := Json.Outline.maxDepth - 4

theorem settled_readList {text : String} {events : List Event} (h : readList text = .ok events) :
    ∀ event ∈ events, event.Settled optionDepth := by
  intro event hevent
  have hin := Json.Document.root_within text.toList
  obtain ⟨start, items, stop, hroot, hevents⟩ := exists_items_of_readList h
  obtain ⟨node, hnode, hread⟩ := exists_left_of_mem hevents hevent
  rw [hroot] at hin
  cases hin with
  | array hin => exact settled_ofNode (hin node hnode) hread

end Event
end Retrace
