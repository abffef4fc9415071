import DockConsole.Proofs.Canvas.Clipped
import DockConsole.Proofs.Canvas.Runs
import DockConsole.Proofs.Header.Layout
import DockConsole.Proofs.Table.Composition

/-!
A drawn table keeps within its place.

Columns are cut where the table ends, the title line and its caption are cut with them, and a
highlighted row is painted as far as the table reaches. So where header and rows have been given the
place of the table, no cell of a drawing is left or right of it, and none is above its first line or
below the lines it has room for.
-/

namespace DockConsole

open Canvas

namespace Canvas

/-- All cells of the canvas are in the columns from `left` up to but not including `right`. -/
def InColumns (left right : Int) (c : Canvas) : Prop :=
  ∀ p cell, c.get? p = some cell → left ≤ p.x ∧ p.x < right

variable {left right : Int} {c : Canvas}

lemma inColumns_empty : InColumns left right empty := fun p cell h => by
  rw [get?_empty] at h
  cases h

/-- A text keeps within the columns if it starts and ends there; an empty one does anywhere. -/
lemma InColumns.write (h : c.InColumns left right) {x : Int} {s : Text} (hleft : left ≤ x)
    (hright : x + s.length ≤ max x right) (y : Int) (style : Style) :
    (c.write x y style s).InColumns left right := by
  intro p cell hp
  rw [get?_write] at hp
  split at hp
  · next hline =>
    rcases Option.or_eq_some_iff.mp hp with hs | ⟨-, hc⟩
    · obtain ⟨ch, hch, -⟩ := Option.map_eq_some_iff.mp hs
      obtain ⟨hlt, -⟩ := List.getElem?_eq_some_iff.mp hch
      omega
    · exact h p cell hc
  · exact h p cell hp

lemma InColumns.writeColumns (h : c.InColumns left right) (y : Int) (first rest : Style)
    {es : List (Span × Text)}
    (hes : ∀ e ∈ es, left ≤ e.1.x ∧ e.1.x + e.1.width ≤ max e.1.x right) :
    (Header.writeColumns y first rest c es).InColumns left right := by
  refine writeColumns_keeps h (fun e he d hd style => ?_) first rest
  obtain ⟨hleft, hright⟩ := hes e he
  have hclip := length_clip e.2 e.1.width
  exact hd.write hleft (by omega) y style

lemma Single.writeColumns (h : c.Single) (y : Int) (first rest : Style)
    (es : List (Span × Text)) : (Header.writeColumns y first rest c es).Single :=
  writeColumns_keeps h (fun e _ _ hd style => hd.write e.1.x y style _) first rest

end Canvas

/-! ### The lines -/

lemma inColumns_titleLine (title : Text) (count : Int) (caption : Text) (x y width : Int) :
    (titleLine title count caption x y width).InColumns x (x + width) := by
  have htext := length_clip (title ++ ": ".toList ++ Text.ofInt count) width
  rw [titleLine]
  generalize clip (title ++ ": ".toList ++ Text.ofInt count) (some width) = text at htext
  have hcaption := length_clip caption (width - text.length)
  exact (inColumns_empty.write (Int.le_refl x) (by omega) y .title).write (by omega) (by omega) y
    .filtered

lemma single_titleLine (title : Text) (count : Int) (caption : Text) (x y width : Int) :
    (titleLine title count caption x y width).Single :=
  (single_empty.write x y .title _).write _ y .filtered _

namespace Header

lemma inColumns_draw {h : Header} (hspacing : 0 ≤ h.spacing) (active : SortMode) (y : Int) :
    (h.draw active y).InColumns h.x (h.x + h.width) :=
  inColumns_empty.writeColumns y .header .header fun _ he => mem_layout hspacing he

lemma single_draw (h : Header) (active : SortMode) (y : Int) : (h.draw active y).Single :=
  single_empty.writeColumns y .header .header _

end Header

namespace Row

lemma inColumns_draw {h : Header} (hspacing : 0 ≤ h.spacing) {r : Row} (hx : r.x = h.x)
    (hwidth : r.width = h.width) (y : Int) : (r.draw h y).InColumns h.x (h.x + h.width) := by
  have hes : ∀ e ∈ h.layout.zip (h.titles.map r.field),
      h.x ≤ e.1.x ∧ e.1.x + e.1.width ≤ max e.1.x (h.x + h.width) := fun _ he =>
    Header.mem_layout hspacing he
  rw [Row.draw]
  split
  · rw [hx, hwidth]
    have hfill : (empty.fill h.x y h.width .highlight).InColumns h.x (h.x + h.width) :=
      inColumns_empty.write (Int.le_refl _) (by rw [List.length_replicate]; omega) y .highlight
    exact hfill.writeColumns y .highlight .highlight hes
  · exact inColumns_empty.writeColumns y _ .plain hes

lemma single_draw (r : Row) (h : Header) (y : Int) : (r.draw h y).Single := by
  rw [Row.draw]
  split
  · exact (single_empty.fill r.x y r.width .highlight).writeColumns y .highlight .highlight _
  · exact single_empty.writeColumns y _ .plain _

end Row

namespace Table

/-- The header and the rows have been given the place of the table. -/
structure Placed (t : Table) : Prop where
  x : t.header.x = t.x
  width : t.header.width = t.width.toNat
  rows : ∀ r ∈ t.rows, r.x = t.x ∧ r.width = t.width.toNat

lemma placed_align (t : Table) : t.align.Placed where
  x := rfl
  width := rfl
  rows := by
    intro r hr
    obtain ⟨s, -, rfl⟩ := List.mem_map.mp hr
    exact ⟨rfl, rfl⟩

section Render

variable {t : Table} (hmounted : t.mounted) (cursor : Cursor)

include hmounted

/-- The rows in sight are rows of the table, with their marks. -/
lemma mem_visible_render {r : Row} (hr : r ∈ (t.render cursor).1.visible) :
    ∃ s ∈ t.rows, ∃ on, r = s.mark on := by
  obtain ⟨k, hk⟩ := List.mem_iff_getElem?.mp hr
  rw [getElem?_visible_render hmounted] at hk
  split at hk
  · obtain ⟨s, hs, rfl⟩ := Option.map_eq_some_iff.mp hk
    have hsorted : s ∈ t.sort.rows := List.mem_of_mem_filter (List.mem_of_getElem? hs)
    exact ⟨s, (Rows.sort_perm t.rows t.sortMode).mem_iff.mp hsorted, _, rfl⟩
  · cases hk

/-- There are no more rows in sight than there is room for. -/
lemma length_visible_render : ((t.render cursor).1.visible.length : Int) ≤ max 0 t.height := by
  have hsize := (fits_render hmounted cursor).size_eq
  by_contra hlt
  obtain ⟨k, hk⟩ : ∃ k : ℕ, (k : Int) = max 0 t.height := ⟨_, Int.toNat_of_nonneg (by omega)⟩
  have hlt : k < (t.render cursor).1.visible.length := by omega
  have hrow := List.getElem?_eq_getElem hlt
  rw [getElem?_visible_render hmounted, if_neg (by omega)] at hrow
  cases hrow

/-- A cell of a drawing is on the title line, among the column titles, or on the line of a row, and
there are no more of these lines than there is room for. -/
lemma get?_render {p : Pos} {cell : Cell} (hcell : (t.render cursor).2.get? p = some cell) :
    t.titled.get? p = some cell ∨ (t.header.draw t.sortMode (t.y + 1)).get? p = some cell ∨
      ∃ (k : ℕ) (s : Row) (on : Bool), (k : Int) < max 0 t.height ∧ s ∈ t.rows ∧
        ((s.mark on).draw t.header (t.y + 2 + k)).get? p = some cell := by
  have hplace : (t.render cursor).1.header = t.header ∧ (t.render cursor).1.y = t.y ∧
      (t.render cursor).1.sortMode = t.sortMode := by
    rw [render_of_mounted hmounted]
    exact ⟨rfl, rfl, rfl⟩
  rw [snd_render t hmounted, get?_draw_eq_some, get?_top_eq_some, titled_render hmounted,
    hplace.1, hplace.2.1, hplace.2.2, or_assoc] at hcell
  rcases hcell with htitle | htitles | ⟨k, r, hr, hrow⟩
  · exact .inl htitle
  · exact .inr (.inl htitles)
  · obtain ⟨s, hs, on, rfl⟩ := mem_visible_render hmounted cursor (List.mem_of_getElem? hr)
    obtain ⟨hlt, -⟩ := List.getElem?_eq_some_iff.mp hr
    have hroom := length_visible_render hmounted cursor
    exact .inr (.inr ⟨k, s, on, by omega, hs, hrow⟩)

end Render

/-- Cells of a drawing keep within the place of the table. -/
lemma inside_render {t : Table} (ht : t.Placed) (hspacing : 0 ≤ t.header.spacing) (cursor : Cursor)
    {p : Pos} {cell : Cell} (hcell : (t.render cursor).2.get? p = some cell) :
    (t.x ≤ p.x ∧ p.x < t.x + t.width) ∧ t.y ≤ p.y ∧ p.y < t.y + 2 + max 0 t.height := by
  by_cases hmounted : t.mounted
  · have hright : t.header.x + t.header.width = t.x + max 0 t.width := by
      rw [ht.x, ht.width, Int.toNat_eq_max, Int.max_comm]
    rcases get?_render hmounted cursor hcell with htitle | htitles | ⟨k, s, on, hk, hs, hrow⟩
    · have hcolumn := inColumns_titleLine _ _ _ _ _ _ p cell htitle
      have hline := t.onLine_titled.y_eq htitle
      omega
    · have hcolumn := Header.inColumns_draw hspacing t.sortMode (t.y + 1) p cell htitles
      have hline := (t.header.onLine_draw t.sortMode (t.y + 1)).y_eq htitles
      rw [hright, ht.x] at hcolumn
      omega
    · obtain ⟨hx, hwidth⟩ := ht.rows s hs
      have hcolumn := Row.inColumns_draw hspacing (r := s.mark on) (hx.trans ht.x.symm)
        (hwidth.trans ht.width.symm) (t.y + 2 + k) p cell hrow
      have hline := ((s.mark on).onLine_draw t.header (t.y + 2 + k)).y_eq hrow
      rw [hright, ht.x] at hcolumn
      omega
  · rw [render_of_not_mounted hmounted, get?_empty] at hcell
    cases hcell

/-- In a drawing every cell holds one character. -/
lemma single_render (t : Table) (cursor : Cursor) : (t.render cursor).2.Single := by
  intro p cell hcell
  by_cases hmounted : t.mounted
  · rcases get?_render hmounted cursor hcell with htitle | htitles | ⟨k, s, on, -, -, hrow⟩
    · exact single_titleLine _ _ _ _ _ _ p cell htitle
    · exact t.header.single_draw t.sortMode (t.y + 1) p cell htitles
    · exact (s.mark on).single_draw t.header (t.y + 2 + k) p cell hrow
  · rw [render_of_not_mounted hmounted, get?_empty] at hcell
    cases hcell

end Table

end DockConsole
