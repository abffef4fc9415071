import DockConsole.Canvas
import Mathlib.Tactic.Common

/-!
Texts that are cut to a width.

Two texts one behind the other can be cut as one: the second gets the width that the first leaves.
So they can be written one behind the other as well, each in its style.
-/

namespace DockConsole.Canvas

lemma length_clip (s : Text) (width : Int) :
    (clip s (some width)).length = min width.toNat s.length := by
  rw [clip, List.length_take]

/-- A text reaches as far as its limit lets it. -/
lemma getElem?_clip_limit (s : Text) (limit : Option Int) (j : ℕ) :
    (clip s limit)[j]? = if ∀ width ∈ limit, (j : Int) < max 0 width then s[j]? else none := by
  cases limit with
  | none => simp [clip]
  | some width =>
    have hiff : j < width.toNat ↔ (j : Int) < max 0 width := by omega
    simp only [clip, List.getElem?_take, Option.mem_some_iff, forall_eq', hiff]

lemma getElem?_clip (s : Text) (width : Int) (j : ℕ) :
    (clip s (some width))[j]? = if (j : Int) < width then s[j]? else none := by
  have hiff : (j : Int) < max 0 width ↔ (j : Int) < width := by omega
  simp only [getElem?_clip_limit, Option.mem_some_iff, forall_eq', hiff]

/-- A text cut to a width is its first part cut to it, and the second cut to what that leaves. -/
lemma clip_append (s t : Text) (width : Int) :
    clip (s ++ t) (some width) =
      clip s (some width) ++ clip t (some (width - (clip s (some width)).length)) := by
  have hroom : (width - (clip s (some width)).length).toNat = width.toNat - s.length := by
    rw [length_clip]
    omega
  calc clip (s ++ t) (some width)
      = s.take width.toNat ++ t.take (width.toNat - s.length) := List.take_append
    _ = clip s (some width) ++ clip t (some (width - (clip s (some width)).length)) := by
        rw [← hroom]
        rfl

/-- Two texts one behind the other are one text in two styles. -/
lemma get?_write_write (c : Canvas) (x y : Int) (first rest : Style) (s t : Text) (p : Pos) :
    ((c.write x y first s).write (x + s.length) y rest t).get? p =
      if p.y = y ∧ x ≤ p.x ∧ 0 ≤ p.x ∧ 0 ≤ p.y then
        ((s ++ t)[(p.x - x).toNat]?.map fun ch =>
          ⟨[ch], if (p.x - x).toNat < s.length then first else rest⟩).or (c.get? p)
      else c.get? p := by
  rw [get?_write, get?_write]
  by_cases hline : p.y = y ∧ x ≤ p.x ∧ 0 ≤ p.x ∧ 0 ≤ p.y
  · simp only [if_pos hline]
    by_cases hfirst : (p.x - x).toNat < s.length
    · rw [if_neg (by omega), List.getElem?_append_left hfirst]
      simp only [if_pos hfirst]
    · have hbehind : (p.x - (x + s.length)).toNat = (p.x - x).toNat - s.length := by omega
      rw [if_pos ⟨hline.1, by omega, hline.2.2⟩, List.getElem?_append_right (by omega), hbehind,
        List.getElem?_eq_none (by omega : s.length ≤ (p.x - x).toNat)]
      simp only [if_neg hfirst, Option.map_none, Option.none_or]
  · rw [if_neg hline, if_neg hline, if_neg fun h => hline ⟨h.1, by omega, h.2.2⟩]

end DockConsole.Canvas
