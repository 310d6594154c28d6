import Retrace.Proofs.Recording.OwnField
import Retrace.Proofs.Recording.RoundTrip
import Retrace.Proofs.Translation

/-! The options of a cookie, from the recording to the line. They are what the object of the cookie holds beside
its name and its value, and the line that sets the cookie ends with a JSON text of them. -/
namespace Retrace
open Json (Value Members Node Key)
open Json.Members (keys AtMostOnce)

namespace CookieEntry

/-- What the object of a cookie holds beside its name and its value. -/
def others (entry : Members) : Members := entry.filter fun m => m.1 != "name" && m.1 != "value"

lemma exists_ofValue_mergesTo {entry : Members} (h : AtMostOnce ["name", "value"] entry) :
    ∃ cookie, ofValue (.object entry) = .ok cookie ∧
      (Value.object (others entry)).MergesTo (.object cookie.options) := by
  rw [ofValue, ownMembers_eq h]
  refine ⟨_, rfl, ?_⟩
  have hmerged := Value.mergesTo_merged (.object (others entry))
  rwa [Value.merged] at hmerged

lemma Settled.read_options {cookie : CookieEntry} (h : cookie.Settled Event.optionDepth)
    (hdouble : ∀ x, (Value.object cookie.options).HasDouble x → x.ReadsBack) :
    Json.readText Node.value (Value.object cookie.options).compact = .ok (.object cookie.options) ∧
      Json.readMembers (Value.object cookie.options).compact = .ok cookie.options := by
  have hin : (Value.object cookie.options).Within Json.Outline.maxDepth := by
    have hown : (Value.object cookie.options).Within (Event.optionDepth + 1) := .object h.within
    exact hown.mono (by decide)
  have hkeys : (Value.object cookie.options).KeysDistinct := .object h.nodup h.distinct
  have hreads (x : Binary64) (hx : (Value.object cookie.options).HasDouble x) :
      x.isFinite ∧ x.ReadsBack := ⟨hx.isFinite hin, hdouble x hx⟩
  exact ⟨Json.readText_compact hin hreads, Json.readMembers_compact hin hkeys hreads⟩

end CookieEntry

/-! ### Where a cookie stands in a recording -/

/-- The item `i` is a cookie event, and its list of cookies has the object `entry` at `j`. -/
def CookieAt (items : List Value) (i j : Nat) (entry : Members) : Prop :=
  ∃ members cookies, items[i]? = some (.object members) ∧
    Action.Kind.ofMembers members = .cookie ∧ members.lookup "cookies" = some (.array cookies) ∧
    cookies[j]? = some (.object entry)

namespace Action

lemma splitKind_eq_ok {members fields : Members} {kind : Kind}
    (h : splitKind members = .ok (kind, fields)) :
    Kind.ofMembers members = kind ∧ fields = members.filter (·.1 != "action") := by
  have hlookup : (members.filter (·.1 == "action")).lookup "action" = members.lookup "action" :=
    Json.Members.lookup_filter (p := (· == "action")) rfl members
  unfold splitKind at h
  split at h
  · cases h
  · rename_i key value more hfilter
    obtain ⟨kind', hkind, h⟩ := bind_eq_ok.mp h
    split_ifs at h
    obtain ⟨rfl, rfl⟩ := Prod.mk.inj (pure_eq_ok.mp h)
    have hkey : key = "action" := by
      have hmem : (key, value) ∈ members.filter (·.1 == "action") := hfilter ▸ List.mem_cons_self
      simpa using (List.mem_filter.mp hmem).2
    rw [hfilter, hkey, List.lookup_cons_self] at hlookup
    rw [Kind.ofMembers, ← hlookup, Option.bind_some, hkind]
    exact ⟨rfl, rfl⟩

lemma cookies_of_ofEventMembers {members : Members} {action : Action} {items : List Value}
    (hkind : Kind.ofMembers members = .cookie) (hitems : members.lookup "cookies" = some (.array items))
    (h : ofEventMembers members = .ok action) : ∃ cookies, action = .cookie (some cookies) ∧
      List.Forall₂ (fun item cookie => CookieEntry.ofValue item = .ok cookie) items cookies := by
  obtain ⟨⟨kind, fields⟩, hsplit, hread⟩ := bind_eq_ok.mp h
  obtain ⟨hk, rfl⟩ := splitKind_eq_ok hsplit
  obtain rfl := hk.symm.trans hkind
  obtain ⟨result, hcontainer, rfl⟩ := map_eq_ok.mp hread
  obtain ⟨result', hlist, hrest⟩ := bind_eq_ok.mp hcontainer
  obtain ⟨own, -, he⟩ := bind_eq_ok.mp hrest
  obtain rfl := pure_eq_ok.mp he
  rw [Json.Members.lookup_filter (p := (· != "action")) (by decide), hitems] at hlist
  obtain ⟨cookies, hcookies, rfl⟩ := map_eq_ok.mp hlist
  exact ⟨cookies, rfl, mapM_eq_ok.mp hcookies⟩

end Action

namespace Event

lemma others_of_gather {nodes : List (Key × Node)} {members : Members}
    (hv : Json.Node.MembersAre nodes members) {seen result : Partial}
    (h : gather seen nodes = .ok result) :
    result.others = (members.filter isOther).reverse ++ seen.others := by
  induction hv generalizing seen with
  | nil =>
    obtain rfl := Except.ok.inj h
    rfl
  | @cons node m nodes rest hm hrest ih =>
    obtain ⟨key, node⟩ := node
    obtain ⟨name, v⟩ := m
    obtain ⟨rfl, hv⟩ := hm
    rw [gather] at h
    split_ifs at h with hid _ hurl
    · obtain ⟨v, -, h⟩ := bind_eq_ok.mp h
      rw [ih h, List.filter_cons_of_neg (by simp [isOther, hid])]
    · obtain ⟨v, -, h⟩ := bind_eq_ok.mp h
      rw [ih h, List.filter_cons_of_neg (by simp [isOther, hurl])]
    · obtain ⟨v, hv', h⟩ := bind_eq_ok.mp h
      obtain rfl := Except.ok.inj (hv.symm.trans hv')
      rw [ih h, List.filter_cons_of_pos (by simp [isOther, hid, hurl]), List.reverse_cons,
        List.append_assoc]
      rfl

lemma cookies_of_ofNode {node : Node} {members : Members} {event : Event} {items : List Value}
    (hv : node.value = .ok (.object members)) (hkind : Action.Kind.ofMembers members = .cookie)
    (hitems : members.lookup "cookies" = some (.array items)) (h : ofNode node = .ok event) :
    ∃ cookies, event.action = .cookie (some cookies) ∧
      List.Forall₂ (fun item cookie => CookieEntry.ofValue item = .ok cookie) items cookies := by
  obtain ⟨start, nodes, stop, rfl, hnodes⟩ := Json.Node.value_eq_object hv
  obtain ⟨seen, hseen, haction, -⟩ := ofNode_object_eq_ok.mp h
  have hothers := others_of_gather hnodes hseen
  rw [hothers, List.append_nil, List.reverse_reverse] at haction
  apply Action.cookies_of_ofEventMembers _ _ haction
  · rw [Action.Kind.ofMembers, lookup_others (by decide) (by decide)]
    exact hkind
  · rw [lookup_others (by decide) (by decide)]
    exact hitems

lemma cookie_of_readList {text : String} {items : List Value}
    (hread : Json.readText Node.value text = .ok (.array items)) {i j : Nat} {entry : Members}
    (hentry : CookieAt items i j entry) {events : List Event} (h : readList text = .ok events) :
    ∃ event cookies cookie, events[i]? = some event ∧ event.action = .cookie (some cookies) ∧
      cookies[j]? = some cookie ∧ CookieEntry.ofValue (.object entry) = .ok cookie := by
  obtain ⟨members, list, hitem, hkind, hlist, hj⟩ := hentry
  have hroot := (Json.readText_eq_ok.mp hread).2
  obtain ⟨start, nodes, stop, hnode, hevents⟩ := exists_items_of_readList h
  obtain ⟨start', nodes', stop', hnode', hitems⟩ := Json.Node.value_eq_array hroot
  obtain ⟨-, rfl, -⟩ := Json.Node.array.inj (hnode.symm.trans hnode')
  obtain ⟨node, hat, hvalue⟩ := exists_left_of_getElem? hitems hitem
  obtain ⟨event, hevent, hofNode⟩ := exists_right_of_getElem? hevents hat
  obtain ⟨cookies, haction, hcookies⟩ := cookies_of_ofNode hvalue hkind hlist hofNode
  obtain ⟨cookie, hcookie, hofValue⟩ := exists_right_of_getElem? hcookies hj
  exact ⟨event, cookies, cookie, hevent, haction, hcookie, hofValue⟩

end Event

/-! ### The line of a cookie -/

/-- The options of a cookie are the other members of its object, and the line that sets the cookie holds them,
verbatim, as its third argument. -/
theorem cookie_options_survive {text : String} {items : List Value}
    (hread : Json.readText Node.value text = .ok (.array items)) {i j : Nat} {entry : Members}
    (hentry : CookieAt items i j entry) (honce : AtMostOnce ["name", "value"] entry) :
    ∃ cookie, CookieEntry.ofValue (.object entry) = .ok cookie ∧
      (Value.object (CookieEntry.others entry)).MergesTo (.object cookie.options) ∧
      ∀ events, Event.readList text = .ok events → ∃ event cookies, events[i]? = some event ∧
        event.action = .cookie (some cookies) ∧ cookies[j]? = some cookie ∧
        ∀ gap, (∀ x, (Value.object cookie.options).HasDouble x → x.ReadsBack) → ∃ argument,
          (translate gap events).setup[(translate gap (events.take i)).setup.length + (j + 1)]? =
            some (.single event.frame .cookie (handleOf event.frame ++ ".setCookie(" ++
              Command.literal gap cookie.name ++ ", " ++ Command.literal gap cookie.value ++ ", " ++
              argument ++ ")")) ∧
          Json.readText Node.value argument = .ok (.object cookie.options) ∧
          Json.readMembers argument = .ok cookie.options := by
  obtain ⟨cookie, hofValue, hmerges⟩ := CookieEntry.exists_ofValue_mergesTo honce
  refine ⟨cookie, hofValue, hmerges, ?_⟩
  intro events hevents
  obtain ⟨event, cookies, cookie', hevent, haction, hcookie, hofValue'⟩ :=
    Event.cookie_of_readList hread hentry hevents
  obtain rfl := Except.ok.inj (hofValue'.symm.trans hofValue)
  refine ⟨event, cookies, hevent, haction, hcookie, ?_⟩
  intro gap hdouble
  have hsettled : cookie'.Settled Event.optionDepth := by
    have hall := (Event.settled_readList hevents event (List.mem_of_getElem? hevent)).action
    rw [haction] at hall
    exact hall cookies rfl cookie' (List.mem_of_getElem? hcookie)
  have hcommand : event.action.setupCommands[j + 1]? =
      some (.setCookie cookie'.name cookie'.value cookie'.options) := by
    simp [haction, Action.setupCommands, hcookie]
  exact ⟨_, setup_at gap hevent hcommand, hsettled.read_options hdouble⟩

open Binary64 (half readsBack_half)

/-- A cookie that gives its path twice, with its name between. -/
def twicePathEntry : Members :=
  [("path", .string "/"), ("name", .string "sid"), ("share", .scalar (.number (.double half))),
    ("path", .string "/a")]

/-- A recording with this cookie. -/
def twicePathItems : List Value :=
  [.object [("cookies", .array [.object twicePathEntry]), ("action", .string "cookie")]]

lemma readText_twicePathItems :
    Json.readText Node.value (Value.array twicePathItems).compact = .ok (.array twicePathItems) := by
  apply Json.readText_compact
  · simp [twicePathItems, twicePathEntry, Value.string, Json.Outline.maxDepth, Json.Scalar.InRange,
      Json.Number.InRange, half, Binary64.isFinite]
  · intro x hx
    obtain rfl : half = x := by
      simpa [twicePathItems, twicePathEntry, Value.string] using hx
    exact ⟨rfl, readsBack_half⟩

lemma readList_twicePathItems : Event.readList (Value.array twicePathItems).compact =
    .ok [⟨.cookie (some [⟨some "sid", none,
      [("path", .string "/a"), ("share", .scalar (.number (.double half)))]⟩]), none, none⟩] := by
  obtain ⟨htrailing, hroot⟩ := Json.readText_eq_ok.mp readText_twicePathItems
  obtain ⟨start, nodes, stop, hnode, hitems⟩ := Json.Node.value_eq_array hroot
  obtain ⟨node, rest, hitem, hrest, rfl⟩ := List.forall₂_cons_right_iff.mp hitems
  obtain rfl := List.forall₂_nil_right_iff.mp hrest
  obtain ⟨start', nodes', stop', rfl, hmembers⟩ := Json.Node.value_eq_object hitem
  refine Json.readText_eq_ok.mpr ⟨htrailing, ?_⟩
  rw [hnode, Event.listOfNode_array]
  refine .cons ?_ .nil
  rw [Event.ofNode_object hmembers (.of_nodup (by decide)), mapError_eq_ok]
  rfl

/-- The path of the cookie stands first in its options, as it did, with the second of its values. -/
theorem cookie_options_of_twice_given_path :
    let recording : Value := .array twicePathItems
    let options : Members := [("path", .string "/a"), ("share", .scalar (.number (.double half)))]
    let event : Event := ⟨.cookie (some [⟨some "sid", none, options⟩]), none, none⟩
    Json.readText Node.value recording.compact = .ok recording ∧
    CookieAt twicePathItems 0 0 twicePathEntry ∧
    AtMostOnce ["name", "value"] twicePathEntry ∧ Event.readList recording.compact = .ok [event] ∧
    ∃ argument, (translate "undefined" [event]).setup[1]? =
        some (.single mainFrame .cookie ("cy.setCookie('sid', 'undefined', " ++ argument ++ ")")) ∧
      Json.readMembers argument = .ok options := by
  intro recording options event
  have hentry : CookieAt twicePathItems 0 0 twicePathEntry :=
    ⟨_, _, rfl, Action.Kind.ofMembers_of_named rfl (.word "cookie"), rfl, rfl⟩
  have honce : AtMostOnce ["name", "value"] twicePathEntry := by simp [AtMostOnce, twicePathEntry]
  obtain ⟨cookie, hofValue, -, hlines⟩ :=
    cookie_options_survive readText_twicePathItems hentry honce
  obtain rfl : cookie = ⟨some "sid", none, options⟩ := Except.ok.inj (hofValue.symm.trans rfl)
  obtain ⟨_, cookies, hevent, -, -, hline⟩ := hlines _ readList_twicePathItems
  obtain rfl := Option.some.inj hevent
  obtain ⟨argument, hsetup, -, hmembers⟩ := hline "undefined" fun x hx => by
    obtain rfl : half = x := by simpa [options, Value.string] using hx
    exact readsBack_half
  exact ⟨readText_twicePathItems, hentry, honce, readList_twicePathItems, argument, hsetup, hmembers⟩

end Retrace
