import Mathlib.Tactic.Common
import Retrace.Translation

/-! How the text of a command starts: with what it addresses, except for the two declarations. So the
line that finds a frame is mistaken for no other line, and names one frame. -/
namespace Retrace

theorem toDigits_injective {m n : Nat} (h : Nat.toDigits 10 m = Nat.toDigits 10 n) : m = n := by
  rw [← @Nat.ofDigitChars_ten_toDigits m, h, Nat.ofDigitChars_ten_toDigits]

lemma frameName_injective {frame other : FrameId} (h : frameName frame = frameName other) :
    frame = other := by
  have hd := congrArg String.toList h
  simp only [frameName, String.toList_append, List.append_cancel_left_eq, Nat.toString_eq_repr,
    Nat.toList_repr] at hd
  exact toDigits_injective hd

lemma takeWhile_isDigit_toDigits (n : Nat) {c : Char} (hc : c.isDigit = false) (rest : List Char) :
    (Nat.toDigits 10 n ++ c :: rest).takeWhile Char.isDigit = Nat.toDigits 10 n := by
  rw [List.takeWhile_append_of_pos]
  · simp [hc]
  · intro d hd
    exact Nat.isDigit_of_mem_toDigits (by decide) (by decide) hd

lemma eq_of_toDigits_append {m n : Nat} {c : Char} (hc : c.isDigit = false) {rest more : List Char}
    (h : Nat.toDigits 10 m ++ c :: rest = Nat.toDigits 10 n ++ c :: more) : m = n := by
  have hdigits := congrArg (List.takeWhile Char.isDigit) h
  rw [takeWhile_isDigit_toDigits m hc, takeWhile_isDigit_toDigits n hc] at hdigits
  exact toDigits_injective hdigits

namespace Command

theorem text_calls {command : Command} (h : command.tag ≠ .declaration) (hs : command.tag ≠ .storage)
    (gap handle : String) : (handle ++ ".").toList <+: (command.text gap handle).toList := by
  cases command with
  | setItem name value => exact absurd rfl hs
  | declareFrames => exact absurd rfl h
  | findFrame frame url => exact absurd rfl h
  | _ => unfold text; simp [onElement, String.append_assoc]

lemma text_stores {command : Command} (h : command.tag = .storage) (gap handle : String) :
    "window.".toList <+: (command.text gap handle).toList := by
  cases command with
  | setItem name value => unfold text; simp
  | _ => cases h

theorem text_addressed {command : Command} (h : command.tag ≠ .declaration) (gap handle : String) :
    (handle ++ ".").toList <+: (command.text gap handle).toList ∨
      "window.".toList <+: (command.text gap handle).toList := by
  by_cases hs : command.tag = .storage
  · exact .inr (text_stores hs gap handle)
  · exact .inl (text_calls h hs gap handle)

lemma text_findFrame (gap handle : String) (frame : FrameId) (url : Option String) :
    ∃ rest, ((findFrame frame url).text gap handle).toList =
      "const frame_".toList ++ (Nat.toDigits 10 frame ++ ' ' :: rest) := by
  refine ⟨"= frames.find(f => f.url() === ".toList ++ (literal gap url).toList ++ [')'], ?_⟩
  unfold text
  simp [frameName]

/-- The text that finds a frame names this frame only. -/
theorem findFrame_text_injective {gap gap' handle handle' : String} {frame frame' : FrameId}
    {url url' : Option String}
    (h : (findFrame frame url).text gap handle = (findFrame frame' url').text gap' handle') :
    frame = frame' := by
  obtain ⟨rest, hr⟩ := text_findFrame gap handle frame url
  obtain ⟨rest', hr'⟩ := text_findFrame gap' handle' frame' url'
  rw [h, hr'] at hr
  exact (eq_of_toDigits_append (by decide) (List.append_cancel_left hr)).symm

theorem text_ne_findFrame {command : Command} (h : command.tag ≠ .declaration)
    (gap gap' handle : String) (frame other : FrameId) (url : Option String) :
    command.text gap (handleOf frame) ≠ (findFrame other url).text gap' handle := by
  intro he
  obtain ⟨rest, hr⟩ := text_findFrame gap' handle other url
  rcases text_addressed h gap (handleOf frame) with hp | hp
  all_goals rw [he, hr] at hp
  · unfold handleOf mainHandle frameName at hp
    split_ifs at hp <;> simp at hp
  · simp at hp

theorem declareFrames_text_ne_findFrame (gap gap' handle handle' : String) (frame : FrameId)
    (url : Option String) :
    declareFrames.text gap handle ≠ (findFrame frame url).text gap' handle' := by
  intro he
  obtain ⟨rest, hr⟩ := text_findFrame gap' handle' frame url
  rw [← he] at hr
  unfold text at hr
  simp at hr

end Command
end Retrace
