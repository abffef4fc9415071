import DockConsole.HelpBar
import DockConsole.Proofs.Screen.Painting
import Mathlib.Data.List.Infix

/-!
What the help bar says.

On a screen with a column the help bar is one text in the last line, as long as all columns but the
last. It starts with the message, or with the keys if there is none, as far as there is room; the
place in the list and blanks fill up what is left.
-/

namespace DockConsole.HelpBar

/-- What the help bar starts with. -/
def subject (message : Text) : Text := if message.isEmpty then keys else message

/-- The text of a help bar that is so many columns wide. -/
def bar (selected count : Int) (message : Text) (width : ℕ) : Text :=
  (subject message ++ "  ".toList ++ place selected count ++ List.replicate width ' ').take width

lemma length_bar (selected count : Int) (message : Text) (width : ℕ) :
    (bar selected count message width).length = width := by
  simp only [bar, List.length_take, List.length_append, List.length_replicate]
  omega

/-- As far as there is room for it, the help bar starts with its message. -/
lemma prefix_bar (selected count : Int) (message : Text) (width : ℕ) :
    (subject message).take width <+: bar selected count message width := by
  unfold bar
  rw [List.append_assoc, List.append_assoc]
  exact (List.prefix_append _ _).take width

lemma text_eq (selected count : Int) (message : Text) {width : Int} (h : 0 ≤ width) :
    text selected count message width = bar selected count message width.toNat := by
  have hpadded (s : Text) (n : ℕ) :
      s.take n ++ List.replicate (n - (s.take n).length) ' ' =
        (s ++ List.replicate n ' ').take n := by
    rw [List.take_append, List.take_replicate, List.length_take]
    congr 2
    omega
  rw [text, Text.padTo, Text.upTo, if_pos h]
  exact hpadded _ _

/-- On a screen with a column the help bar is one text, which leaves the last column. -/
lemma draw_eq {size : ScreenSize} (h : 1 ≤ size.columns) (theme : Theme) (selected count : Int)
    (message : Text) :
    ∃ attr, draw size theme selected count message =
      [.addText (size.rows - 1) 0 (bar selected count message (size.columns - 1).toNat) attr] := by
  have hwhole : (bar selected count message (size.columns - 1).toNat).take
      (size.columns - 0 - 1).toNat = bar selected count message (size.columns - 1).toNat :=
    List.take_of_length_le (by rw [length_bar]; omega)
  rw [draw, Screen.addClipped_eq, if_pos (by omega), text_eq _ _ _ (by omega), hwhole]
  exact ⟨_, rfl⟩

end DockConsole.HelpBar
