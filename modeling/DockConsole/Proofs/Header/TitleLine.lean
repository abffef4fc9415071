import DockConsole.Header
import DockConsole.Proofs.Canvas.Clipped

/-!
The line above the table.

The caption starts where the title with its count ends, and has the width that those leave. So the
line is one text cut to the width, in two styles, wherever the cut falls and wherever the line starts.
-/

namespace DockConsole

open Canvas

/-- A title with its count. -/
def counted (title : Text) (count : Int) : Text := title ++ ": ".toList ++ Text.ofInt count

lemma titleLine_eq (title : Text) (count : Int) (caption : Text) (x y width : Int) :
    titleLine title count caption x y width =
      let text := clip (counted title count) (some width)
      (empty.write x y .title text).write (x + text.length) y .filtered
        (clip caption (some (width - text.length))) := rfl

lemma get?_titleLine (title : Text) (count : Int) (caption : Text) (x y width : Int) (p : Pos) :
    (titleLine title count caption x y width).get? p =
      if p.y = y ∧ x ≤ p.x ∧ 0 ≤ p.x ∧ 0 ≤ p.y then
        (clip (counted title count ++ caption) (some width))[(p.x - x).toNat]?.map fun ch =>
          ⟨[ch], if (p.x - x).toNat < (counted title count).length then .title else .filtered⟩
      else none := by
  rw [titleLine_eq, get?_write_write, ← clip_append, get?_empty]
  split
  · rw [Option.or_none]
    refine Option.map_congr fun ch hch => ?_
    -- if the title is cut, nothing of the caption is left
    have hcut := (List.getElem?_eq_some_iff.mp hch).1
    rw [length_clip] at hcut
    have hstyle : (p.x - x).toNat < (clip (counted title count) (some width)).length ↔
        (p.x - x).toNat < (counted title count).length := by
      rw [length_clip]
      omega
    simp only [hstyle]
  · rfl

/-- **The title line is one clipped text**: its cells are the characters of the title with its count
and the caption, one behind the other from column `x` on, as many as the width has room for, if they
are on the screen. Those of the title and the count are in the style of titles, the others in that
of filters. -/
theorem titleLine_clipped (title : Text) (count : Int) (caption : Text) (x y width : Int) :
    let head := counted title count
    let text := head ++ caption
    ∀ p cell, (titleLine title count caption x y width).get? p = some cell ↔
      ∃ i : ℕ, (i : Int) < min (text.length : Int) (max 0 width) ∧ p = ⟨x + i, y⟩ ∧
        (0 ≤ x + i ∧ 0 ≤ y) ∧ ∃ ch, text[i]? = some ch ∧
          cell = ⟨[ch], if i < head.length then .title else .filtered⟩ := by
  intro head text p cell
  rw [get?_titleLine]
  constructor
  · intro hcell
    split at hcell
    · next hline =>
      obtain ⟨hy, hx, hleft, htop⟩ := hline
      obtain ⟨ch, hch, rfl⟩ := Option.map_eq_some_iff.mp hcell
      have hroom := (List.getElem?_eq_some_iff.mp hch).1
      rw [length_clip] at hroom
      have htext : text[(p.x - x).toNat]? = some ch := by
        rwa [getElem?_clip, if_pos (by omega)] at hch
      have hp : p = ⟨x + (p.x - x).toNat, y⟩ := by
        obtain ⟨px, py⟩ := p
        simp only [Pos.mk.injEq] at hx hy ⊢
        omega
      refine ⟨(p.x - x).toNat, ?_, hp, by omega, ch, htext, rfl⟩
      show _ < min ((counted title count ++ caption).length : Int) _
      omega
    · cases hcell
  · rintro ⟨i, hi, rfl, ⟨hleft, htop⟩, ch, hch, rfl⟩
    have hat : (x + i - x).toNat = i := by omega
    have hclip : (clip text (some width))[i]? = some ch := by
      rw [getElem?_clip, if_pos (by omega), hch]
    rw [if_pos (by simp only [true_and]; omega)]
    simp only [hat]
    rw [hclip]
    rfl

end DockConsole
