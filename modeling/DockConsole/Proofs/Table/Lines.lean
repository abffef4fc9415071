import DockConsole.Table
import Mathlib.Tactic.Common

/-!
The lines of a drawn table.

The title line, the column titles and every row keep to a line of their own, so a drawing is known
by what stands on each of its lines.
-/

namespace DockConsole

namespace Canvas

/-- All cells of the canvas are on line `y`. -/
def OnLine (y : Int) (c : Canvas) : Prop := ∀ p, p.y ≠ y → c.get? p = none

variable {y : Int} {c : Canvas}

lemma onLine_empty : OnLine y empty := fun p _ => get?_empty p

lemma OnLine.write (h : OnLine y c) (x : Int) (style : Style) (s : Text) :
    OnLine y (c.write x y style s) := by
  intro p hp
  rw [get?_write, if_neg fun k => hp k.1]
  exact h p hp

lemma OnLine.fill (h : OnLine y c) (x width : Int) (style : Style) :
    OnLine y (c.fill x y width style) := h.write x style _

/-- What each write of a text into its column keeps, a line of such texts keeps. -/
lemma writeColumns_keeps {P : Canvas → Prop} {es : List (Span × Text)} (h : P c)
    (hwrite : ∀ e ∈ es, ∀ d : Canvas, P d → ∀ style,
      P (d.write e.1.x y style (clip e.2 (some e.1.width))))
    (first rest : Style) : P (Header.writeColumns y first rest c es) := by
  induction es generalizing c first with
  | nil => exact h
  | cons e es ih =>
    exact ih (hwrite e List.mem_cons_self c h first)
      (fun f hf => hwrite f (List.mem_cons_of_mem e hf)) rest

lemma OnLine.writeColumns (h : OnLine y c) (first rest : Style) (es : List (Span × Text)) :
    OnLine y (Header.writeColumns y first rest c es) :=
  writeColumns_keeps h (fun e _ _ hd style => hd.write e.1.x style _) first rest

end Canvas

open Canvas

lemma onLine_titleLine (title : Text) (count : Int) (caption : Text) (x y width : Int) :
    OnLine y (titleLine title count caption x y width) :=
  (onLine_empty.write x .title _).write _ .filtered _

lemma Header.onLine_draw (h : Header) (active : SortMode) (y : Int) : OnLine y (h.draw active y) :=
  onLine_empty.writeColumns .header .header _

lemma Row.onLine_draw (r : Row) (h : Header) (y : Int) : OnLine y (r.draw h y) := by
  rw [Row.draw]
  split
  · exact (onLine_empty.fill r.x r.width .highlight).writeColumns .highlight .highlight _
  · exact onLine_empty.writeColumns _ .plain _

/-! ### Rows on consecutive lines -/

/-- A row is drawn on the line that its place in the list gives it, over what was there. -/
lemma Rows.get?_draw (h : Header) (y : Int) (c : Canvas) (rows : List Row) (p : Pos) :
    (Rows.draw h y c rows).get? p =
      if y ≤ p.y then
        ((rows[(p.y - y).toNat]?).bind fun r => (r.draw h p.y).get? p).or (c.get? p)
      else c.get? p := by
  induction rows generalizing y c with
  | nil => simp [Rows.draw]
  | cons r rows ih =>
    rw [Rows.draw, ih, get?_merge]
    rcases Int.lt_trichotomy p.y y with hlt | heq | hgt
    · -- above the row
      rw [if_neg (by omega), if_neg (by omega), r.onLine_draw h y p (by omega), Option.none_or]
    · -- on its line
      rw [if_neg (by omega), if_pos (by omega), heq, Int.sub_self]
      rfl
    · -- below the row
      have hat : (p.y - y).toNat = (p.y - (y + 1)).toNat + 1 := by omega
      rw [if_pos (by omega), if_pos (by omega), r.onLine_draw h y p (by omega), Option.none_or,
        hat, List.getElem?_cons_succ]

namespace Table

/-- What is drawn above the rows. -/
def top (t : Table) : Canvas :=
  (titleLine "Containers".toList t.rows.length t.caption t.x t.y t.width).merge
    (t.header.draw t.sortMode (t.y + 1))

lemma get?_top {t : Table} {p : Pos} (h : t.y + 2 ≤ p.y) : t.top.get? p = none := by
  rw [top, get?_merge, t.header.onLine_draw t.sortMode (t.y + 1) p (by omega),
    onLine_titleLine _ _ _ _ _ _ p (by omega)]
  rfl

lemma get?_draw (t : Table) (p : Pos) :
    t.draw.get? p =
      if t.y + 2 ≤ p.y then
        (t.visible[(p.y - (t.y + 2)).toNat]?).bind fun r => (r.draw t.header p.y).get? p
      else t.top.get? p := by
  show (Rows.draw t.header (t.y + 2) t.top t.visible).get? p = _
  rw [Rows.get?_draw]
  split
  · next h => rw [get?_top h, Option.or_none]
  · rfl

/-- Tables with the same lines above their rows are drawn alike exactly if their visible rows are,
line by line. -/
theorem draw_eq_draw_iff {t u : Table} (hheader : u.header = t.header) (hy : u.y = t.y)
    (htop : u.top = t.top) (hlength : u.visible.length = t.visible.length) :
    u.draw = t.draw ↔
      ∀ (k : ℕ) (r s : Row), t.visible[k]? = some r → u.visible[k]? = some s →
        s.draw t.header (t.y + 2 + k) = r.draw t.header (t.y + 2 + k) := by
  constructor
  · intro heq k r s hr hs
    refine ext_get? fun p => ?_
    by_cases hp : p.y = t.y + 2 + k
    · have hk : (p.y - (t.y + 2)).toNat = k := by omega
      have hget := congrArg (·.get? p) heq
      simp only [get?_draw, hheader, hy] at hget
      rw [if_pos (by omega), if_pos (by omega), hk, hr, hs] at hget
      rw [← hp]
      exact hget
    · rw [s.onLine_draw _ _ p hp, r.onLine_draw _ _ p hp]
  · intro h
    refine ext_get? fun p => ?_
    rw [get?_draw, get?_draw, hheader, hy, htop]
    split
    · next hp =>
      obtain ⟨k, hk⟩ : ∃ k, (p.y - (t.y + 2)).toNat = k := ⟨_, rfl⟩
      have hy : p.y = t.y + 2 + k := by omega
      rw [hk]
      rcases hr : t.visible[k]? with _ | r
      · have hs : u.visible[k]? = none := by
          rw [List.getElem?_eq_none_iff, hlength]
          exact List.getElem?_eq_none_iff.mp hr
        rw [hs]
      · obtain ⟨s, hs⟩ : ∃ s, u.visible[k]? = some s :=
          List.getElem?_eq_some_iff.mp hr |>.elim fun hlt _ =>
            ⟨_, List.getElem?_eq_getElem (hlength ▸ hlt)⟩
        rw [hs, Option.bind_some, Option.bind_some, hy, h k r s hr hs]
    · rfl

end Table

end DockConsole
