import DockConsole.Proofs.Rows.Filter
import DockConsole.Proofs.Table.Lines
import DockConsole.Proofs.Table.Selection
import DockConsole.Proofs.Window.Bounds

/-!
What a drawing is made of.

A mounted table is drawn as a title line, the column titles and the visible rows, each on a line of
its own. The visible rows are those in the window, among the rows that the filter lets through, in
order; the selected one is highlighted.
-/

namespace DockConsole

open Canvas

namespace Canvas

variable {y z : Int} {c d : Canvas} {p : Pos} {cell : Cell}

lemma OnLine.y_eq (h : OnLine y c) (hp : c.get? p = some cell) : p.y = y := by
  by_contra hne
  rw [h p hne] at hp
  cases hp

/-- Of canvases on lines of their own, none hides a cell of the other. -/
lemma OnLine.get?_merge_eq_some (hc : OnLine y c) (hd : OnLine z d) (hne : y ≠ z) :
    (c.merge d).get? p = some cell ↔ c.get? p = some cell ∨ d.get? p = some cell := by
  rw [get?_merge, Option.or_eq_some_iff]
  constructor
  · rintro (h | ⟨-, h⟩)
    · exact .inr h
    · exact .inl h
  · rintro (h | h)
    · exact .inr ⟨hd p (hc.y_eq h ▸ hne), h⟩
    · exact .inl h

end Canvas

namespace Table

/-- The line above the column titles. -/
def titled (t : Table) : Canvas :=
  titleLine "Containers".toList t.rows.length t.caption t.x t.y t.width

lemma onLine_titled (t : Table) : OnLine t.y t.titled := onLine_titleLine _ _ _ _ _ _

lemma get?_top_eq_some (t : Table) (p : Pos) (cell : Cell) :
    t.top.get? p = some cell ↔
      t.titled.get? p = some cell ∨
        (t.header.draw t.sortMode (t.y + 1)).get? p = some cell :=
  t.onLine_titled.get?_merge_eq_some (t.header.onLine_draw t.sortMode (t.y + 1)) (by omega)

/-- A cell of a drawing is one of the two lines on top, or one of a visible row. -/
lemma get?_draw_eq_some (t : Table) (p : Pos) (cell : Cell) :
    t.draw.get? p = some cell ↔
      t.top.get? p = some cell ∨
        ∃ (k : ℕ) (r : Row), t.visible[k]? = some r ∧
          (r.draw t.header (t.y + 2 + k)).get? p = some cell := by
  rw [get?_draw]
  split
  · next hrows =>
    rw [get?_top hrows, Option.bind_eq_some_iff]
    constructor
    · rintro ⟨r, hr, hcell⟩
      have hy : t.y + 2 + ((p.y - (t.y + 2)).toNat : ℕ) = p.y := by omega
      refine .inr ⟨_, r, hr, ?_⟩
      rw [hy]
      exact hcell
    · rintro (h | ⟨k, r, hr, hcell⟩)
      · cases h
      · have hy := (r.onLine_draw t.header (t.y + 2 + k)).y_eq hcell
        have hk : (p.y - (t.y + 2)).toNat = k := by omega
        exact ⟨r, hk ▸ hr, hy ▸ hcell⟩
  · next hrows =>
    refine ⟨.inl, ?_⟩
    rintro (h | ⟨k, r, -, hcell⟩)
    · exact h
    · have hy := (r.onLine_draw t.header (t.y + 2 + k)).y_eq hcell
      exact absurd hrows (by omega)

/-! ### What drawing sets -/

lemma length_rows_select_sort (t : Table) (cursor : Cursor) :
    (t.sort.select cursor).rows.length = t.rows.length := by
  rw [rows_select_sort, ← List.length_map (f := Row.bare),
    Rows.map_highlight (f := Row.bare) fun _ => rfl, List.length_map, Rows.plain, List.length_map]
  exact (Rows.sort_perm t.rows t.sortMode).length_eq

lemma length_shown_select_sort (t : Table) (cursor : Cursor) :
    (t.sort.select cursor).shown.length = t.shown.length := by
  rw [shown_select_sort, List.length_modify, Rows.plain, List.length_map, length_shown_sort]

/-- Every row gets the mark or loses it, whatever it had. -/
lemma getElem?_shown_select_sort_eq (t : Table) (cursor : Cursor) (i : ℕ) :
    (t.sort.select cursor).shown[i]? =
      t.sort.shown[i]?.map (Row.mark (i = t.indexUnder cursor)) := by
  rw [shown_select_sort, List.getElem?_modify, Rows.plain, List.getElem?_map]
  rcases t.sort.shown[i]? with _ | r
  · rfl
  · simp only [Option.map_eq_map, Option.map_some, Option.some.injEq]
    by_cases h : t.indexUnder cursor = i
    · rw [if_pos h, decide_eq_true h.symm]
      rfl
    · rw [if_neg h, decide_eq_false (Ne.symm h)]
      rfl

section Render

variable {t : Table} (hmounted : t.mounted) (cursor : Cursor)

include hmounted

lemma length_shown_render : (t.render cursor).1.shown.length = t.shown.length := by
  rw [render_of_mounted hmounted]
  exact length_shown_select_sort t cursor

lemma selected_render : (t.render cursor).1.selected = t.indexUnder cursor := by
  rw [render_of_mounted hmounted]
  exact selected_select_sort t cursor

lemma window_render : (t.render cursor).1.window =
    t.window.follow (t.indexUnder cursor) t.shown.length t.height := by
  rw [render_of_mounted hmounted, scroll]
  show t.window.follow (t.sort.select cursor).selected (t.sort.select cursor).shown.length _ = _
  rw [selected_select_sort, length_shown_select_sort]
  rfl

lemma fits_render : (t.render cursor).1.window.Fits t.shown.length t.height := by
  rw [window_render hmounted]
  exact Window.fits_follow _ (by omega)

lemma titled_render : (t.render cursor).1.titled = t.titled := by
  rw [render_of_mounted hmounted]
  show titleLine _ (t.sort.select cursor).rows.length _ _ _ _ = _
  rw [length_rows_select_sort]
  rfl

/-- The rows in sight are those in the window, one of them marked. -/
lemma getElem?_visible_render (k : ℕ) :
    (t.render cursor).1.visible[k]? =
      if (k : Int) < (t.render cursor).1.window.stop - (t.render cursor).1.window.start then
        t.sort.shown[(t.render cursor).1.window.start.toNat + k]?.map
          (Row.mark ((t.render cursor).1.window.start + k = t.indexUnder cursor))
      else none := by
  have hfits := fits_render hmounted cursor
  have hstart := hfits.start_nonneg
  have hshown : (t.render cursor).1.shown = (t.sort.select cursor).shown := by
    rw [render_of_mounted hmounted]
    rfl
  have hmark : ((t.render cursor).1.window.start.toNat + k = t.indexUnder cursor) =
      ((t.render cursor).1.window.start + k = (t.indexUnder cursor : Int)) :=
    propext (by omega)
  rw [visible, hfits.getElem?_slice, hshown, getElem?_shown_select_sort_eq]
  simp only [hmark]

end Render

/-- **Composition**: a drawing consists of the title line, the line of column titles, and one line
for each row in the window, all on lines of their own, and of nothing else. The window is the one
that follows the selected row, and of the rows only that one is highlighted. -/
theorem drawing_composed (t : Table) (hmounted : t.mounted) (cursor : Cursor) {sorted : List Row}
    (hsorted : Rows.Sorts t.sortMode t.rows sorted) :
    let shown := sorted.filter fun r => t.pattern <:+: r.field "NAMES".toList
    let selected := min cursor.position (shown.length - 1)
    let window := t.window.follow selected shown.length t.height
    let title := titleLine "Containers".toList t.rows.length t.caption t.x t.y t.width
    let titles := t.header.draw t.sortMode (t.y + 1)
    let line := fun (k : ℕ) (r : Row) =>
      (r.mark (window.start + k = selected)).draw t.header (t.y + 2 + k)
    (t.render cursor).1.window = window ∧ window.Fits shown.length t.height ∧
      (OnLine t.y title ∧ OnLine (t.y + 1) titles ∧
        ∀ (k : ℕ) (r : Row), OnLine (t.y + 2 + k) (line k r)) ∧
      ∀ p cell, (t.render cursor).2.get? p = some cell ↔
        title.get? p = some cell ∨ titles.get? p = some cell ∨
          ∃ (k : ℕ) (r : Row), (k : Int) < window.stop - window.start ∧
            shown[window.start.toNat + k]? = some r ∧ (line k r).get? p = some cell := by
  obtain rfl := Rows.sorts_iff.mp hsorted
  intro shown selected window title titles line
  have hshown : shown = t.sort.shown := (Rows.filter_eq _ _).symm
  have hlength : shown.length = t.shown.length := by rw [hshown, length_shown_sort]
  have hselected : t.indexUnder cursor = selected := by rw [indexUnder, ← hlength]
  have hwindow : (t.render cursor).1.window = window := by
    rw [window_render hmounted, hselected, ← hlength]
  have hfits : window.Fits shown.length t.height := Window.fits_follow _ (by omega)
  refine ⟨hwindow, hfits, ⟨onLine_titled t, t.header.onLine_draw _ _,
    fun k r => Row.onLine_draw _ _ _⟩, fun p cell => ?_⟩
  have hplace : (t.render cursor).1.header = t.header ∧ (t.render cursor).1.y = t.y ∧
      (t.render cursor).1.sortMode = t.sortMode := by
    rw [render_of_mounted hmounted]
    exact ⟨rfl, rfl, rfl⟩
  rw [snd_render t hmounted, get?_draw_eq_some, get?_top_eq_some, titled_render hmounted,
    hplace.1, hplace.2.1, hplace.2.2, or_assoc]
  refine or_congr_right (or_congr_right (exists_congr fun k => ?_))
  rw [getElem?_visible_render hmounted, hwindow, hselected, ← hshown]
  split
  · next hk => simp only [Option.map_eq_some_iff, exists_exists_and_eq_and, hk, true_and, line]
  · next hk => simp only [hk, false_and, exists_false, reduceCtorEq]

/-- In one line, with the cursor past the end: the second of the rows of `w` by id, highlighted. -/
theorem drawing_composed_in_one_line :
    let loaded : Table := Table.load { width := 40, height := 1 }
      [{ id := ['b'], names := [['w']] }, { id := ['c'] }, { id := ['a'], names := [['w']] }]
    let t := { loaded with pattern := ['w'], window := ⟨5, 9⟩ }
    let sorted := Rows.sort t.rows t.sortMode
    (t.mounted ∧ Rows.Sorts t.sortMode t.rows sorted) ∧
      (t.render ⟨7⟩).1.window = ⟨1, 2⟩ ∧
      (t.render ⟨7⟩).2.get? ⟨3, 2⟩ = some ⟨['b'], .highlight⟩ := by
  intro loaded t sorted
  have hsorted : Rows.Sorts t.sortMode t.rows sorted := Rows.sorts_sort _ _
  obtain ⟨hwindow, -, -, hcells⟩ := drawing_composed t rfl ⟨7⟩ hsorted
  refine ⟨⟨rfl, hsorted⟩, hwindow.trans (by decide +kernel), ?_⟩
  exact (hcells ⟨3, 2⟩ _).mpr (.inr (.inr ⟨0, _, by decide +kernel, rfl, by decide +kernel⟩))

end Table

end DockConsole
