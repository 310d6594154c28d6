import Retrace.Json.Outline
import Retrace.Proofs.Success

/-! An outline with a value holds that value part by part. -/
namespace Retrace.Json

namespace Node

lemma values_eq_ok {nodes : List Node} {items : List Value} :
    values nodes = .ok items ↔ List.Forall₂ (fun node v => node.value = .ok v) nodes items := by
  induction nodes generalizing items with
  | nil => simp [values, eq_comm]
  | cons node rest ih =>
    rw [values, bind_eq_ok, List.forall₂_cons_left_iff]
    constructor
    · rintro ⟨v, hv, hrest⟩
      obtain ⟨vs, hvs, he⟩ := bind_eq_ok.mp hrest
      exact ⟨v, vs, hv, ih.mp hvs, (pure_eq_ok.mp he).symm⟩
    · rintro ⟨v, vs, hv, hvs, rfl⟩
      exact ⟨v, hv, bind_eq_ok.mpr ⟨vs, ih.mpr hvs, rfl⟩⟩

/-- Outlines with the keys and the values of the members. -/
abbrev MembersAre (nodes : List (Key × Node)) (members : Members) : Prop :=
  List.Forall₂ (fun node m => node.1.name = m.1 ∧ node.2.value = .ok m.2) nodes members

lemma memberValues_eq_ok {nodes : List (Key × Node)} {members : Members} :
    memberValues nodes = .ok members ↔ MembersAre nodes members := by
  induction nodes generalizing members with
  | nil => simp [memberValues, eq_comm]
  | cons node rest ih =>
    rw [memberValues, bind_eq_ok, MembersAre, List.forall₂_cons_left_iff]
    constructor
    · rintro ⟨v, hv, hrest⟩
      obtain ⟨vs, hvs, he⟩ := bind_eq_ok.mp hrest
      exact ⟨(node.1.name, v), vs, ⟨rfl, hv⟩, ih.mp hvs, (pure_eq_ok.mp he).symm⟩
    · rintro ⟨⟨key, v⟩, vs, ⟨rfl, hv⟩, hvs, rfl⟩
      exact ⟨v, hv, bind_eq_ok.mpr ⟨vs, ih.mpr hvs, rfl⟩⟩

lemma value_array {start : Nat} {nodes : List Node} {stop : Except Fault Nat} {v : Value} :
    (array start nodes stop).value = .ok v ↔
      ∃ items n, v = .array items ∧ stop = .ok n ∧ values nodes = .ok items := by
  rw [value, bind_eq_ok]
  constructor
  · rintro ⟨items, hitems, h⟩
    obtain ⟨n, hn, he⟩ := bind_eq_ok.mp h
    exact ⟨items, n, (pure_eq_ok.mp he).symm, hn, hitems⟩
  · rintro ⟨items, n, rfl, hn, hitems⟩
    exact ⟨items, hitems, bind_eq_ok.mpr ⟨n, hn, rfl⟩⟩

lemma value_object {start : Nat} {nodes : List (Key × Node)} {stop : Except Fault Nat} {v : Value} :
    (object start nodes stop).value = .ok v ↔
      ∃ members n, v = .object members ∧ stop = .ok n ∧ memberValues nodes = .ok members := by
  rw [value, bind_eq_ok]
  constructor
  · rintro ⟨members, hmembers, h⟩
    obtain ⟨n, hn, he⟩ := bind_eq_ok.mp h
    exact ⟨members, n, (pure_eq_ok.mp he).symm, hn, hmembers⟩
  · rintro ⟨members, n, rfl, hn, hmembers⟩
    exact ⟨members, hmembers, bind_eq_ok.mpr ⟨n, hn, rfl⟩⟩

theorem value_eq_array {node : Node} {items : List Value} (h : node.value = .ok (.array items)) :
    ∃ start nodes stop, node = .array start nodes (.ok stop) ∧
      List.Forall₂ (fun node v => node.value = .ok v) nodes items := by
  cases node with
  | array start nodes stop =>
    obtain ⟨items', n, he, rfl, hv⟩ := value_array.mp h
    obtain rfl := Value.array.inj he
    exact ⟨start, nodes, n, rfl, values_eq_ok.mp hv⟩
  | object start nodes stop =>
    obtain ⟨members, n, he, -⟩ := value_object.mp h
    cases he
  | scalar s stop => simp [value] at h
  | broken fault => simp [value] at h

theorem value_eq_object {node : Node} {members : Members} (h : node.value = .ok (.object members)) :
    ∃ start nodes stop, node = .object start nodes (.ok stop) ∧ MembersAre nodes members := by
  cases node with
  | object start nodes stop =>
    obtain ⟨members', n, he, rfl, hv⟩ := value_object.mp h
    obtain rfl := Value.object.inj he
    exact ⟨start, nodes, n, rfl, memberValues_eq_ok.mp hv⟩
  | array start nodes stop =>
    obtain ⟨items, n, he, -⟩ := value_array.mp h
    cases he
  | scalar s stop => simp [value] at h
  | broken fault => simp [value] at h

end Node

theorem readText_eq_ok {α : Type} {reader : Node → Except Fault α} {text : String} {a : α} :
    readText reader text = .ok a ↔
      (Document.ofText text.toList).trailing = none ∧
        reader (Document.ofText text.toList).root = .ok a := by
  rw [readText, mapError_eq_ok, Document.read, bind_eq_ok]
  cases (Document.ofText text.toList).trailing with
  | none => simp [pure_eq_ok]
  | some fault => simp

end Retrace.Json
