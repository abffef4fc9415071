import DockConsole.Proofs.Table.History
import DockConsole.Proofs.Table.Lines

/-!
What a refresh that brings nothing new changes.

A load starts again from the daemon's order, while the rows held before it have been sorted in every
order drawn since the last load. Rows that tie in the present order may therefore change places;
nothing else does.
-/

namespace DockConsole.Table

variable {t : Table} {h : History}

/-- The rows laid out where the table is, one of them marked, and the window moved to it. -/
def laid (t : Table) (rows : List Row) (index : ℕ) : Table :=
  { t with
    rows := Rows.highlight t.pattern index (rows.map t.stand)
    selected := index }.scroll

lemma shown_laid (t : Table) (rows : List Row) (index : ℕ) :
    (t.laid rows index).shown =
      ((Rows.filter rows t.pattern).map t.stand).modify index (Row.mark true) := by
  show Rows.filter (Rows.highlight t.pattern index _) t.pattern = _
  rw [Rows.filter_highlight, Rows.map_filter (f := t.stand) (fun _ => rfl)]

lemma length_shown_laid (t : Table) (rows : List Row) (index : ℕ) :
    (t.laid rows index).shown.length = (Rows.filter rows t.pattern).length := by
  rw [shown_laid, List.length_modify, List.length_map]

lemma length_rows_laid (t : Table) (rows : List Row) (index : ℕ) :
    (t.laid rows index).rows.length = rows.length := by
  show (Rows.highlight _ _ _).length = _
  rw [← List.length_map (f := Row.bare), Rows.map_highlight (f := Row.bare) (fun _ => rfl),
    List.length_map, List.length_map]

lemma window_laid (t : Table) (rows : List Row) (index : ℕ) :
    (t.laid rows index).window =
      t.window.follow index (Rows.filter rows t.pattern).length t.height := by
  rw [← length_shown_laid t rows index]; rfl

lemma bare_laid (t : Table) {rows : List Row} (hbare : rows.map Row.bare = rows) (index : ℕ) :
    (t.laid rows index).rows.map Row.bare = rows := by
  show (Rows.highlight _ _ _).map Row.bare = _
  rw [Rows.map_highlight (f := Row.bare) (fun _ => rfl), List.map_map]
  exact hbare

lemma Holds.render_eq (hh : t.Holds h) (hm : t.mounted) (cursor : Cursor) :
    (t.render cursor).1 =
      t.laid (Rows.sort (h.rows t.header.titles) t.sortMode) (t.indexUnder cursor) := by
  rw [render_of_mounted hm, laid, ← hh.rows_select_sort hm, ← selected_select_sort]
  rfl

/-- The table after a load of the answer it was loaded with last, drawn. -/
lemma Holds.render_load (hh : t.Holds h) (hm : t.mounted) (cursor : Cursor) :
    ((t.load h.answer).render cursor).1 =
      t.laid (Rows.sort (h.built t.header.titles) t.sortMode) (t.indexUnder cursor) := by
  have hload := Holds.load t h.answer
  have hindex : (t.load h.answer).indexUnder cursor = t.indexUnder cursor := by
    rw [indexUnder, indexUnder, hh.length_shown_load]
  have hlaid (rows : List Row) (index : ℕ) : (t.load h.answer).laid rows index =
      { t.laid rows index with header := t.header.align t.x t.width, mounted := true } := rfl
  rw [hload.render_eq rfl, hindex, hlaid, hh.header_eq hm, ← hm]
  rfl

/-! ### Two drawings compared -/

/-- The rows in sight look the same, line by line, and the selected row is of the same container. -/
def SameSight (t u : Table) : Prop :=
  (∀ (k : ℕ) (r s : Row), t.visible[k]? = some r → u.visible[k]? = some s →
    s.draw t.header (t.y + 2 + k) = r.draw t.header (t.y + 2 + k)) ∧
  (u.shown[t.selected]?).map Row.id = (t.shown[t.selected]?).map Row.id

lemma length_slice {α : Type} (w : Window) {xs ys : List α} (h : ys.length = xs.length) :
    (w.slice ys).length = (w.slice xs).length := by
  simp [Window.slice, h]

/-- What a table acts on hangs on the id of the selected row. -/
lemma target_eq_target_iff {t u : Table} (hselected : t.selected ≤ t.shown.length - 1)
    (hindex : u.selected = t.selected) (hshown : u.shown.length = t.shown.length)
    (hrows : u.rows.length = t.rows.length) (hpattern : u.pattern = t.pattern) :
    u.target = t.target ↔
      (u.shown[t.selected]?).map Row.id = (t.shown[t.selected]?).map Row.id := by
  have hempty : u.rows.isEmpty = t.rows.isEmpty := by
    rw [Bool.eq_iff_iff, List.isEmpty_iff_length_eq_zero, List.isEmpty_iff_length_eq_zero, hrows]
  rw [target, target, hindex, hshown, Nat.min_eq_left hselected, hempty, hpattern]
  rcases hu : u.shown[t.selected]? with _ | s <;> rcases ht : t.shown[t.selected]? with _ | r
  · simp
  · rw [List.getElem?_eq_none_iff, hshown] at hu
    rw [List.getElem?_eq_none hu] at ht
    cases ht
  · rw [List.getElem?_eq_none_iff, ← hshown] at ht
    rw [List.getElem?_eq_none ht] at hu
    cases hu
  · simp

section Laid

variable {xs ys : List Row} (hperm : xs.Perm ys) (index : ℕ)

include hperm

lemma length_filter_perm (pattern : Text) :
    (Rows.filter xs pattern).length = (Rows.filter ys pattern).length :=
  (hperm.filter _).length_eq

lemma window_laid_perm : (t.laid ys index).window = (t.laid xs index).window := by
  rw [window_laid, window_laid, length_filter_perm hperm]

lemma draw_laid_iff :
    (t.laid ys index).draw = (t.laid xs index).draw ↔
      ∀ (k : ℕ) (r s : Row), (t.laid xs index).visible[k]? = some r →
        (t.laid ys index).visible[k]? = some s →
        s.draw t.header (t.y + 2 + k) = r.draw t.header (t.y + 2 + k) := by
  refine draw_eq_draw_iff rfl rfl ?_ ?_
  · have hrows : (t.laid ys index).rows.length = (t.laid xs index).rows.length := by
      rw [length_rows_laid, length_rows_laid, hperm.length_eq]
    rw [top, top, hrows]
    rfl
  · rw [visible, visible, window_laid_perm hperm]
    refine length_slice _ ?_
    rw [length_shown_laid, length_shown_laid, length_filter_perm hperm]

/-- Drawings of the same rows in two orders. -/
lemma sameSight_laid_iff (hindex : index ≤ (Rows.filter xs t.pattern).length - 1) :
    (t.laid ys index).draw = (t.laid xs index).draw ∧
        (t.laid ys index).target = (t.laid xs index).target ↔
      SameSight (t.laid xs index) (t.laid ys index) := by
  rw [draw_laid_iff hperm, target_eq_target_iff]
  · rfl
  · rw [length_shown_laid]; exact hindex
  · rfl
  · rw [length_shown_laid, length_shown_laid, length_filter_perm hperm]
  · rw [length_rows_laid, length_rows_laid, hperm.length_eq]
  · rfl

end Laid

lemma laid_eq_laid_iff {xs ys : List Row} (hxs : xs.map Row.bare = xs)
    (hys : ys.map Row.bare = ys) (index : ℕ) : t.laid ys index = t.laid xs index ↔ ys = xs := by
  constructor
  · intro heq
    rw [← bare_laid t hys index, heq, bare_laid t hxs index]
  · rintro rfl; rfl

/-! ### A refresh -/

/-- The rows that tie in the order `mode` are held as the answer listed them. -/
def History.TiesAsListed (h : History) (titles : List Text) (mode : SortMode) : Prop :=
  ∀ key, (h.rows titles).filter (Rows.keyIn mode · = key) =
    (h.built titles).filter (Rows.keyIn mode · = key)

/-- The session with a provider that answers as it did at the last load. -/
def Session.answering (s : Session) (containers : List Container) : Session :=
  { s with supply := containers, outage := none }

/-- **What a refresh changes** that brings the list of the last load again: never the window nor the
selected index; what is drawn and what would be acted on exactly if the rows in sight differ; and
the rows as a whole exactly if rows that tie in the present order are not held as listed, for which
the table must have been drawn in another order since the last load. -/
theorem refresh_invisible_iff (s₀ : Session) (hfresh : s₀.Fresh) (steps : List Step)
    (hmounted : (s₀.run steps).table.mounted) :
    let s := s₀.run steps
    let h := History.run {} s₀ steps
    let t := s.render
    let u := (s.answering h.answer).reload.session.render
    let ties := h.TiesAsListed s.table.header.titles s.table.sortMode
    u.1.table.window = t.1.table.window ∧ u.1.table.selected = t.1.table.selected ∧
      (u.2 = t.2 ∧ u.1.table.target = t.1.table.target ↔ SameSight t.1.table u.1.table) ∧
      (u.1.table = t.1.table ↔ ties) ∧
      (ties → u.2 = t.2 ∧ u.1.table.target = t.1.table.target) ∧
      ((∀ mode ∈ h.orders, mode = s.table.sortMode ∨ mode = .unsorted) → ties) := by
  intro s h t u ties
  have hh : s.table.Holds h := Session.holds_run hfresh.holds steps
  have ht : t.1.table = _ := hh.render_eq hmounted s.cursor
  have hu : u.1.table = _ := hh.render_load hmounted s.cursor
  have htdraw : t.2 = t.1.table.draw := s.table.snd_render hmounted s.cursor
  have hudraw : u.2 = u.1.table.draw :=
    (s.table.load h.answer).snd_render rfl s.cursor
  have hties : u.1.table = t.1.table ↔ ties := by
    rw [ht, hu, laid_eq_laid_iff (History.bare_sort h.bare_rows _)
      (History.bare_sort h.bare_built _), eq_comm, Rows.sort_eq_sort_iff]
    exact .rfl
  have hsame (h : u.1.table = t.1.table) : u.2 = t.2 ∧ u.1.table.target = t.1.table.target := by
    rw [hudraw, htdraw, h]
    exact ⟨rfl, rfl⟩
  have hperm := calc
    List.Perm (Rows.sort (h.rows s.table.header.titles) s.table.sortMode)
        (h.rows s.table.header.titles) := Rows.sort_perm _ _
    List.Perm _ (h.built s.table.header.titles) := h.rows_perm
    List.Perm _ (Rows.sort (h.built s.table.header.titles) s.table.sortMode) :=
      (Rows.sort_perm _ _).symm
  refine ⟨?_, ?_, ?_, hties, fun h => hsame (hties.mpr h), fun horders => ?_⟩
  · rw [ht, hu]; exact window_laid_perm hperm _
  · rw [ht, hu]; rfl
  · rw [hudraw, htdraw, ht, hu]
    refine sameSight_laid_iff hperm _ ?_
    rw [← length_filter_perm (Rows.sort_perm _ _).symm, ← hh.length_shown]
    exact Nat.min_le_right _ _
  · exact Rows.sort_eq_sort_iff.mp (h.sort_rows_of_orders horders)

/-- Drawn in one order only, a table with ties does not change. -/
theorem refresh_invisible_in_one_order :
    let s₀ : Session :=
      { table := {}, supply := [{ id := ['b'] }, { id := ['a'] }, { id := ['a'] }] }
    let s := s₀.run [.mount, .render, .cursorMove 1 2, .render]
    (s₀.Fresh ∧ s.table.mounted) ∧
      (s.answering s₀.supply).reload.session.render.2 = s.render.2 := by
  intro s₀ s
  have hfresh : s₀.Fresh := ⟨rfl, rfl⟩
  obtain ⟨-, -, -, -, hsame, horder⟩ :=
    refresh_invisible_iff s₀ hfresh [.mount, .render, .cursorMove 1 2, .render] rfl
  exact ⟨⟨hfresh, rfl⟩, (hsame (horder (by decide))).1⟩

/-- Containers `b` and `a` of one image, drawn by id and then by image, stand as `a`, `b`; a refresh
shows them as `b`, `a` and acts on the other one. -/
theorem refresh_not_always_invisible :
    ¬ ∀ (s₀ : Session) (steps : List Step), s₀.Fresh → (s₀.run steps).table.mounted →
      let s := s₀.run steps
      let t := s.render
      let u := (s.answering (History.run {} s₀ steps).answer).reload.session.render
      u.2 = t.2 ∧ u.1.table.target = t.1.table.target ∧ u.1.table.window = t.1.table.window := by
  intro h
  have htarget := (h { table := {}, supply := [{ id := ['b'] }, { id := ['a'] }] }
    [.mount, .render, .sort, .render] ⟨rfl, rfl⟩ rfl).2.1
  have hb : (Except.ok ['b'] : Except NoTarget Text) = .ok ['a'] := htarget
  exact absurd hb (by decide)

end DockConsole.Table
