import DockConsole.Proofs.Table.Selection

/-!
What the rows of a table in use go back to.

A history keeps the answer of the last load and the orders the table was drawn in since. The rows of
a session are those of that answer, sorted in each of these orders in turn.
-/

namespace DockConsole.Table

/-- What the table was last loaded with, and the orders it was drawn in since. -/
structure History where
  asked : List Selection := []
  answer : List Container := []
  orders : List SortMode := []

namespace History

open Session

/-- The rows of the answer, as they were built. -/
def built (h : History) (titles : List Text) : List Row := h.answer.map (Row.ofContainer titles)

/-- The rows of the answer, brought into each of the orders in turn. -/
def rows (h : History) (titles : List Text) : List Row := h.orders.foldl Rows.sort (h.built titles)

def reload (h : History) (s : Session) : History :=
  if s.outage.isSome then h else ⟨s.table.selections, s.supply, []⟩

def render (h : History) (s : Session) : History :=
  if s.table.mounted then { h with orders := h.orders ++ [s.table.sortMode] } else h

def act (h : History) (s : Session) : Action → History
  | .render => h.render s
  | .remount => h.reload s
  | _ => h

/-- An action that finds no row to act on is not run. -/
def step (h : History) (s : Session) : Step → History
  | .mount => if s.table.mounted then h else h.reload s
  | .remount => h.reload s
  | .render => h.render s
  | .dispatch action =>
    match s.table.target with
    | .ok _ => h.act s action
    | .error _ => h
  | _ => h

def run (h : History) (s : Session) : List Step → History
  | [] => h
  | step :: steps => (h.step s step).run (s.step step).session steps

lemma run_append (h : History) (s : Session) (xs ys : List Step) :
    h.run s (xs ++ ys) = (h.run s xs).run (s.run xs) ys := by
  induction xs generalizing h s with
  | nil => rfl
  | cons x xs ih => exact ih _ _

variable {titles : List Text}

lemma bare_built (h : History) : (h.built titles).map Row.bare = h.built titles := by
  rw [built, List.map_map]; rfl

lemma bare_sort {rows : List Row} (hrows : rows.map Row.bare = rows) (mode : SortMode) :
    (Rows.sort rows mode).map Row.bare = Rows.sort rows mode := by
  rw [Rows.map_sort (f := Row.bare) (fun _ => rfl), hrows]

lemma bare_rows (h : History) : (h.rows titles).map Row.bare = h.rows titles := by
  have hfold (orders : List SortMode) (rows : List Row) (hrows : rows.map Row.bare = rows) :
      (orders.foldl Rows.sort rows).map Row.bare = orders.foldl Rows.sort rows := by
    induction orders generalizing rows with
    | nil => exact hrows
    | cons mode orders ih => exact ih _ (bare_sort hrows mode)
  exact hfold _ _ h.bare_built

lemma rows_perm (h : History) : (h.rows titles).Perm (h.built titles) := by
  have hfold (orders : List SortMode) (rows : List Row) :
      (orders.foldl Rows.sort rows).Perm rows := by
    induction orders generalizing rows with
    | nil => exact .refl _
    | cons mode orders ih => exact (ih _).trans (Rows.sort_perm rows mode)
  exact hfold _ _

/-- Drawing in the order `mode`, or in none, is forgotten by sorting in the order `mode`. -/
lemma sort_rows_of_orders (h : History) {mode : SortMode}
    (horders : ∀ m ∈ h.orders, m = mode ∨ m = .unsorted) :
    Rows.sort (h.rows titles) mode = Rows.sort (h.built titles) mode := by
  have hfold (orders : List SortMode) (rows : List Row)
      (horders : ∀ m ∈ orders, m = mode ∨ m = .unsorted) :
      Rows.sort (orders.foldl Rows.sort rows) mode = Rows.sort rows mode := by
    induction orders generalizing rows with
    | nil => rfl
    | cons m orders ih =>
      rw [List.foldl_cons, ih _ fun m hm => horders m (List.mem_cons_of_mem _ hm)]
      rcases horders m List.mem_cons_self with rfl | rfl
      · exact Rows.sort_sort rows m
      · rfl
  exact hfold _ _ horders

end History

/-! ### What every session keeps -/

/-- A row of the table, where the table is. -/
def stand (t : Table) (r : Row) : Row := r.align t.x t.width

/-- The rows of the table are those of the history, and they stand where the table does. -/
structure Holds (t : Table) (h : History) : Prop where
  rows : t.rows.map Row.bare = h.rows t.header.titles
  placed : t.mounted → t.align = t
  asked : t.mounted → h.asked = t.selections

lemma align_align (t : Table) : t.align.align = t.align := by
  simp only [align, List.map_map]
  rfl

/-- A load of what was loaded already changes nothing. -/
lemma load_load (t : Table) (containers : List Container) :
    (t.load containers).load containers = t.load containers := rfl

namespace Holds

variable {t : Table} {h : History}

lemma load (t : Table) (containers : List Container) :
    (t.load containers).Holds ⟨t.selections, containers, []⟩ where
  rows := by
    simp only [Table.load, align, List.map_map]
    rfl
  placed _ := align_align _
  asked _ := rfl

lemma resize (hh : t.Holds h) (x y width height : Int) : (t.resize x y width height).Holds h where
  rows := by
    show (t.rows.map _).map Row.bare = h.rows t.header.titles
    rw [← hh.rows, List.map_map]
    rfl
  placed _ := align_align _
  asked := hh.asked

lemma unmount (hh : t.Holds h) : t.unmount.Holds h := ⟨hh.rows, Bool.noConfusion, Bool.noConfusion⟩

lemma toggleShowAll (hh : t.Holds h) : t.toggleShowAll.Holds h :=
  ⟨hh.rows, Bool.noConfusion, Bool.noConfusion⟩

lemma filter (hh : t.Holds h) (pattern : Text) : (t.filter pattern).Holds h :=
  ⟨hh.rows, fun hm => congrArg (Table.filter · pattern) (hh.placed hm), hh.asked⟩

lemma rotateSort (hh : t.Holds h) : t.rotateSort.Holds h :=
  ⟨hh.rows, fun hm => congrArg Table.rotateSort (hh.placed hm), hh.asked⟩

lemma header_eq (hh : t.Holds h) (hm : t.mounted) : t.header.align t.x t.width = t.header :=
  congrArg Table.header (hh.placed hm)

lemma map_stand (hh : t.Holds h) (hm : t.mounted) : t.rows.map t.stand = t.rows :=
  congrArg Table.rows (hh.placed hm)

lemma bare_shown (hh : t.Holds h) :
    t.shown.map Row.bare = Rows.filter (h.rows t.header.titles) t.pattern := by
  rw [← hh.rows, ← Rows.map_filter (f := Row.bare) (fun _ => rfl)]
  rfl

lemma length_shown (hh : t.Holds h) :
    t.shown.length = (Rows.filter (h.rows t.header.titles) t.pattern).length := by
  rw [← hh.bare_shown, List.length_map]

/-- A load of the answer that the table was loaded with last shows as many rows. -/
lemma length_shown_load (hh : t.Holds h) :
    (t.load h.answer).shown.length = t.shown.length := by
  rw [(Holds.load t h.answer).length_shown, hh.length_shown]
  exact (h.rows_perm.symm.filter _).length_eq

/-- After such a load, and before a drawing, the table counts to the row that the answer has at the
index. -/
lemma target_load (hh : t.Holds h) {row : Row} (hrow : t.shown[t.selected]? = some row) :
    ∃ s, (Rows.filter (h.built t.header.titles) t.pattern)[t.selected]? = some s ∧
      (t.load h.answer).target = .ok s.id := by
  obtain ⟨hlt, -⟩ := List.getElem?_eq_some_iff.mp hrow
  have hlength := hh.length_shown_load
  obtain ⟨s, hs⟩ : ∃ s, (t.load h.answer).shown[t.selected]? = some s :=
    ⟨_, List.getElem?_eq_getElem (hlength ▸ hlt)⟩
  have hbuilt : (t.load h.answer).shown.map Row.bare =
      Rows.filter (h.built t.header.titles) t.pattern :=
    (Holds.load t h.answer).bare_shown
  refine ⟨s.bare, ?_, ?_⟩
  · rw [← hbuilt, List.getElem?_map, hs]
    rfl
  · show (t.load h.answer).target = .ok s.id
    refine target_of_getElem? hs ?_
    show min t.selected ((t.load h.answer).shown.length - 1) = t.selected
    rw [hlength]
    exact Nat.min_eq_left (by omega)

/-- Drawing lays out the rows of the history, brought in order, and marks one of them. -/
lemma rows_select_sort (hh : t.Holds h) (hm : t.mounted) (cursor : Cursor) :
    (t.sort.select cursor).rows =
      Rows.highlight t.pattern (t.indexUnder cursor)
        ((Rows.sort (h.rows t.header.titles) t.sortMode).map t.stand) := by
  have hplaced : t.sort.rows.map t.stand = t.sort.rows := by
    rw [sort, Rows.map_sort (f := t.stand) (fun _ => rfl), hh.map_stand hm]
  have hbare : t.sort.rows.map Row.bare = Rows.sort (h.rows t.header.titles) t.sortMode := by
    rw [sort, Rows.map_sort (f := Row.bare) (fun _ => rfl), hh.rows]
  rw [Table.rows_select_sort, ← hplaced, ← hbare, Rows.plain, List.map_map, List.map_map]
  rfl

lemma render (hh : t.Holds h) (hm : t.mounted) (cursor : Cursor) :
    (t.render cursor).1.Holds { h with orders := h.orders ++ [t.sortMode] } := by
  have hrows := hh.rows_select_sort hm cursor
  rw [render_of_mounted hm]
  refine ⟨?_, fun _ => ?_, hh.asked⟩
  · show (t.sort.select cursor).rows.map Row.bare =
      (h.orders ++ [t.sortMode]).foldl Rows.sort (h.built t.header.titles)
    rw [hrows, Rows.map_highlight (f := Row.bare) (fun _ => rfl), List.map_map, List.foldl_append,
      List.foldl_cons, List.foldl_nil]
    exact History.bare_sort h.bare_rows t.sortMode
  · have hplaced : (t.sort.select cursor).rows.map t.stand =
        (t.sort.select cursor).rows := by
      rw [hrows, Rows.highlight_map (f := t.stand) (fun _ => rfl) (fun _ => rfl),
        List.map_map]
      rfl
    show { (t.sort.select cursor).scroll with
      header := t.header.align t.x t.width
      rows := (t.sort.select cursor).rows.map t.stand } = _
    rw [hplaced, hh.header_eq hm]
    rfl

end Holds

/-- A session that has not loaded anything yet. -/
structure Session.Fresh (s : Session) : Prop where
  rows : s.table.rows = []
  not_mounted : s.table.mounted = false

namespace Session

variable {s : Session} {h : History}

lemma Fresh.holds (hs : s.Fresh) : s.table.Holds {} where
  rows := by rw [hs.rows]; rfl
  placed hm := by simp [hs.not_mounted] at hm
  asked hm := by simp [hs.not_mounted] at hm

lemma holds_reload (hh : s.table.Holds h) : s.reload.session.table.Holds (h.reload s) := by
  rcases ho : s.outage with _ | o
  · simp only [reload, History.reload, ho, Option.isSome_none, Bool.false_eq_true, if_false]
    exact .load s.table s.supply
  · simp only [reload, History.reload, ho, Option.isSome_some, if_true]
    exact hh

lemma holds_render (hh : s.table.Holds h) : s.render.1.table.Holds (h.render s) := by
  by_cases hm : s.table.mounted
  · rw [History.render, if_pos hm]
    exact hh.render hm s.cursor
  · rw [History.render, if_neg hm, render, render_of_not_mounted hm]
    exact hh

lemma session_act_remount (s : Session) (id : Text) :
    (s.act id .remount).session = s.reload.session := by
  rw [act]; split <;> rfl

lemma holds_act (hh : s.table.Holds h) (id : Text) (action : Action) :
    (s.act id action).session.table.Holds (h.act s action) := by
  cases action with
  | render => exact holds_render hh
  | remount => rw [session_act_remount]; exact holds_reload hh
  | _ => exact hh

lemma holds_step (hh : s.table.Holds h) (step : Step) :
    (s.step step).session.table.Holds (h.step s step) := by
  cases step with
  | mount =>
    simp only [Session.step, mount, History.step]
    split
    · exact hh
    · exact holds_reload hh
  | unmount => exact hh.unmount
  | remount => exact holds_reload hh
  | render => exact holds_render hh
  | filter pattern => exact hh.filter _
  | sort => exact hh.rotateSort
  | toggleShowAll => exact hh.toggleShowAll
  | resize x y width height => exact hh.resize x y width height
  | dispatch action =>
    simp only [Session.step, dispatch, History.step]
    split
    · next htarget => rw [htarget]; exact hh
    · next id htarget => rw [htarget]; exact holds_act hh id action
  | _ => exact hh

/-- **Provenance**: after any steps, the rows are those of the last answer in the orders of its
drawings, and where the table is. -/
theorem holds_run (hh : s.table.Holds h) (steps : List Step) :
    (s.run steps).table.Holds (h.run s steps) := by
  induction steps generalizing s h with
  | nil => exact hh
  | cons step steps ih => exact ih (holds_step hh step)

end Session

end DockConsole.Table
