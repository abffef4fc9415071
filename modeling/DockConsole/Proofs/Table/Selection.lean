import DockConsole.Proofs.Rows.Highlight
import DockConsole.Table.Session

/-!
The selected row of a table in use.

Drawing marks one row among those shown and counts to it. Both the mark and the count stay with that
row until the table is drawn, loaded or filtered again, so an action runs on the row that is marked.
-/

namespace DockConsole.Table

/-! ### Drawing -/

lemma render_of_mounted {t : Table} (h : t.mounted) (cursor : Cursor) :
    t.render cursor = ((t.sort.select cursor).scroll, ((t.sort.select cursor).scroll).draw) := by
  rw [render, if_pos h]

lemma snd_render (t : Table) (h : t.mounted) (cursor : Cursor) :
    (t.render cursor).2 = (t.render cursor).1.draw := by
  rw [render_of_mounted h]

lemma render_of_not_mounted {t : Table} (h : ¬ t.mounted) (cursor : Cursor) :
    t.render cursor = (t, .empty) := by
  rw [render, if_neg h]

lemma length_shown_sort (t : Table) : t.sort.shown.length = t.shown.length :=
  ((Rows.sort_perm t.rows t.sortMode).filter _).length_eq

/-- The index that drawing selects: the cursor's, or the last one. -/
def indexUnder (t : Table) (cursor : Cursor) : ℕ := min cursor.position (t.shown.length - 1)

lemma selected_select_sort (t : Table) (cursor : Cursor) :
    (t.sort.select cursor).selected = t.indexUnder cursor := by
  rw [indexUnder, ← length_shown_sort]; rfl

lemma rows_select_sort (t : Table) (cursor : Cursor) :
    (t.sort.select cursor).rows =
      Rows.highlight t.pattern (t.indexUnder cursor) (Rows.plain t.sort.rows) := by
  rw [← selected_select_sort]; rfl

lemma filter_plain (t : Table) :
    Rows.filter (Rows.plain t.rows) t.pattern = Rows.plain t.shown :=
  (Rows.map_filter (f := Row.mark false) (fun _ => rfl) t.rows t.pattern).symm

lemma shown_select_sort (t : Table) (cursor : Cursor) :
    (t.sort.select cursor).shown =
      (Rows.plain t.sort.shown).modify (t.indexUnder cursor) (Row.mark true) := by
  rw [shown, rows_select_sort, ← filter_plain]
  exact Rows.filter_highlight _ _

/-- Drawing marks the row under the cursor, and no other. -/
lemma marked_select_sort {t : Table} {cursor : Cursor} {r : Row}
    (h : t.sort.shown[t.indexUnder cursor]? = some r) :
    (t.sort.select cursor).rows.filter (·.highlighted) = [r.mark true] := by
  have hplain : (Rows.filter (Rows.plain t.sort.rows) t.pattern)[t.indexUnder cursor]? =
      some (r.mark false) := by
    rw [show Rows.filter (Rows.plain t.sort.rows) t.pattern = Rows.plain t.sort.shown from
      filter_plain t.sort, Rows.plain, List.getElem?_map, h]
    rfl
  have hunmarked : ∀ r ∈ Rows.plain t.sort.rows, r.highlighted = false := fun r hr =>
    Rows.highlighted_of_mem_plain hr
  rw [rows_select_sort, Rows.marked_highlight hunmarked, hplain]
  rfl

lemma getElem?_shown_select_sort {t : Table} {cursor : Cursor} {r : Row}
    (h : t.sort.shown[t.indexUnder cursor]? = some r) :
    (t.sort.select cursor).shown[t.indexUnder cursor]? = some (r.mark true) := by
  rw [shown_select_sort, List.getElem?_modify_eq, Rows.plain, List.getElem?_map, h]
  rfl

lemma indexUnder_lt {t : Table} (h : t.shown ≠ []) (cursor : Cursor) :
    t.indexUnder cursor < t.shown.length := by
  have := List.length_pos_iff.mpr h
  unfold indexUnder; omega

lemma mounted_render (t : Table) (cursor : Cursor) :
    (t.render cursor).1.mounted = t.mounted := by
  rw [render]; split <;> rfl

/-- A row that is drawn with the mark is the one that the table counts to. -/
lemma shown_selected_of_drawn {t : Table} (h : t.mounted) {cursor : Cursor} {r : Row}
    (hdrawn : r ∈ (t.render cursor).1.visible) (hmarked : r.highlighted) :
    (t.render cursor).1.shown[(t.render cursor).1.selected]? = some r := by
  rw [render_of_mounted h] at hdrawn ⊢
  have hr : r ∈ (t.sort.select cursor).shown :=
    List.mem_of_mem_take (List.mem_of_mem_drop hdrawn)
  have hlt : t.indexUnder cursor < t.sort.shown.length := by
    have hpos := List.length_pos_of_mem hr
    rw [shown_select_sort, List.length_modify, Rows.plain, List.length_map] at hpos
    rw [indexUnder, ← length_shown_sort]
    omega
  obtain ⟨r₀, hr₀⟩ : ∃ r₀, t.sort.shown[t.indexUnder cursor]? = some r₀ :=
    ⟨_, List.getElem?_eq_getElem hlt⟩
  have heq : r ∈ (t.sort.select cursor).rows.filter (·.highlighted) :=
    List.mem_filter.mpr ⟨(List.mem_filter.mp hr).1, hmarked⟩
  rw [marked_select_sort hr₀, List.mem_singleton] at heq
  show (t.sort.select cursor).shown[(t.sort.select cursor).selected]? = some r
  rw [selected_select_sort, heq]
  exact getElem?_shown_select_sort hr₀

/-! ### What leaves the selection alone -/

/-- The tables hold the same rows with the same marks, wherever they are drawn, and count to the
same of them. -/
structure Alike (t u : Table) : Prop where
  rows : u.rows.map Row.unplaced = t.rows.map Row.unplaced
  pattern : u.pattern = t.pattern
  selected : u.selected = t.selected

namespace Alike

variable {t u v : Table}

lemma refl (t : Table) : Alike t t := ⟨rfl, rfl, rfl⟩

lemma trans (h : Alike t u) (k : Alike u v) : Alike t v :=
  ⟨k.rows.trans h.rows, k.pattern.trans h.pattern, k.selected.trans h.selected⟩

lemma resize (t : Table) (x y width height : Int) : Alike t (t.resize x y width height) := by
  refine ⟨?_, rfl, rfl⟩
  show (t.rows.map _).map _ = _
  rw [List.map_map]
  rfl

lemma shown (h : Alike t u) : u.shown.map Row.unplaced = t.shown.map Row.unplaced := by
  have hfields (r : Row) : r.unplaced.fields = r.fields := rfl
  rw [Table.shown, Table.shown, Rows.map_filter hfields, Rows.map_filter hfields, h.rows, h.pattern]

lemma marked (h : Alike t u) :
    (u.rows.filter (·.highlighted)).map Row.unplaced =
      (t.rows.filter (·.highlighted)).map Row.unplaced := by
  have hmap (rows : List Row) : (rows.filter (·.highlighted)).map Row.unplaced =
      (rows.map Row.unplaced).filter (·.highlighted) := by
    rw [List.filter_map]; rfl
  rw [hmap, hmap, h.rows]

lemma length_shown (h : Alike t u) : u.shown.length = t.shown.length := by
  rw [← List.length_map (f := Row.unplaced), h.shown, List.length_map]

/-- The one marked row stays the one marked row, at its index. -/
lemma marked_row (h : Alike t u) {r : Row} {index : ℕ}
    (hmarked : t.rows.filter (·.highlighted) = [r]) (hat : t.shown[index]? = some r) :
    ∃ s : Row, u.rows.filter (·.highlighted) = [s] ∧ u.shown[index]? = some s ∧
      s.unplaced = r.unplaced := by
  have hm := h.marked
  rw [hmarked, List.map_singleton, List.map_eq_singleton_iff] at hm
  obtain ⟨s, hs, hsr⟩ := hm
  have ha : (u.shown.map Row.unplaced)[index]? = some r.unplaced := by
    rw [h.shown, List.getElem?_map, hat]; rfl
  rw [List.getElem?_map, Option.map_eq_some_iff] at ha
  obtain ⟨s', hs', hsr'⟩ := ha
  -- the row at the index has the mark of `r`, so it is the one marked row
  have hmark : s' ∈ u.rows.filter (·.highlighted) := by
    have hlight : s'.highlighted = s.highlighted := by
      show s'.unplaced.highlighted = s.unplaced.highlighted
      rw [hsr', hsr]
    have hslight : s.highlighted := (List.mem_filter.mp (hs ▸ List.mem_singleton_self s)).2
    refine List.mem_filter.mpr ⟨?_, hlight.trans hslight⟩
    exact (List.mem_filter.mp (List.mem_of_getElem? hs')).1
  rw [hs, List.mem_singleton] at hmark
  exact ⟨s, hs, hmark ▸ hs', hsr⟩

end Alike

namespace Session

/-- A step that neither draws, loads nor filters the table. -/
def Leaves (s : Session) : Step → Prop
  | .unmount | .sort | .toggleShowAll | .resize .. | .supply _ | .fail _ => True
  | .cursorMove .. | .cursorHome | .cursorToLast _ => True
  | .mount => s.table.mounted ∨ s.outage.isSome
  | .remount => s.outage.isSome
  | .render => ¬ s.table.mounted
  | .filter _ | .dispatch _ => False

/-- Steps of which each, in the state it comes in, neither draws, loads nor filters the table. -/
def Idle (s : Session) : List Step → Prop
  | [] => True
  | step :: steps => s.Leaves step ∧ (s.step step).session.Idle steps

lemma reload_of_outage {s : Session} (h : s.outage.isSome) : s.reload.session = s := by
  obtain ⟨o, ho⟩ := Option.isSome_iff_exists.mp h
  rw [reload, ho]

lemma alike_step {s : Session} {step : Step} (h : s.Leaves step) :
    Alike s.table (s.step step).session.table := by
  cases step with
  | mount =>
    rw [Session.step, mount]
    split
    · exact .refl _
    · next hm => rw [reload_of_outage (h.resolve_left hm)]; exact .refl _
  | remount => rw [Session.step, reload_of_outage h]; exact .refl _
  | render =>
    rw [Session.step, render, render_of_not_mounted h]
    exact .refl _
  | resize x y width height => exact .resize s.table x y width height
  | filter => exact h.elim
  | dispatch => exact h.elim
  | _ => exact ⟨rfl, rfl, rfl⟩

lemma alike_run {s : Session} {steps : List Step} (h : s.Idle steps) :
    Alike s.table (s.run steps).table := by
  induction steps generalizing s with
  | nil => exact .refl _
  | cons step steps ih => exact (alike_step h.1).trans (ih h.2)

end Session

def Notice.acted? : Notice → Option Text
  | acted id => some id
  | _ => none

namespace Session

lemma dispatch_of_target {s : Session} {id : Text} (h : s.table.target = .ok id)
    (act : Session → Text → Outcome) :
    s.dispatch act = { act s id with notices := .acted id :: (act s id).notices } := by
  rw [dispatch, h]

/-- What an action does is not itself an action. -/
lemma acted_act (s : Session) (id : Text) (action : Action) :
    (s.act id action).notices.filterMap Notice.acted? = [] := by
  cases action with
  | remount =>
    rcases h : s.outage with _ | o <;> simp [act, reload, h, Notice.acted?]
  | _ => rfl

end Session

lemma target_of_getElem? {t : Table} {r : Row} {index : ℕ} (h : t.shown[index]? = some r)
    (hselected : min t.selected (t.shown.length - 1) = index) : t.target = .ok r.id := by
  rw [target, hselected, h]

/-- **An action runs on the marked row**: from a drawing on, and through any steps that neither
draw, load nor filter the table, the row under the cursor at that drawing is the only one with a
mark, and an action is run on its container, once. -/
theorem dispatch_marked (s : Session) (hmounted : s.table.mounted) (hshown : s.table.shown ≠ [])
    (steps : List Step) (hidle : s.render.1.Idle steps) (act : Session → Text → Outcome) :
    let ordered := Rows.filter (Rows.sort s.table.rows s.table.sortMode) s.table.pattern
    let index := min s.cursor.position (s.table.shown.length - 1)
    let u := s.render.1.run steps
    ∃ r : Row, u.table.rows.filter (·.highlighted) = [r] ∧
      u.table.shown[index]? = some r ∧
      ordered[index]?.map Row.bare = some r.bare ∧
      u.dispatch act = { act u r.id with notices := .acted r.id :: (act u r.id).notices } ∧
      ∀ action, (u.step (.dispatch action)).notices.filterMap Notice.acted? = [r.id] := by
  intro ordered index u
  -- the row under the cursor, at the drawing and after it
  have hlt : index < ordered.length := (length_shown_sort s.table).symm ▸ indexUnder_lt hshown _
  obtain ⟨r₀, hr₀⟩ : ∃ r₀, ordered[index]? = some r₀ := ⟨_, List.getElem?_eq_getElem hlt⟩
  have hrender : s.render.1.table = (s.table.sort.select s.cursor).scroll := by
    rw [Session.render, render_of_mounted hmounted]
  have hal : Alike (s.table.sort.select s.cursor).scroll u.table :=
    hrender ▸ Session.alike_run hidle
  obtain ⟨r, hmarked, hat, hr⟩ :=
    hal.marked_row (marked_select_sort hr₀) (getElem?_shown_select_sort hr₀)
  -- it is what the table counts to
  have htarget : u.table.target = .ok r.id := by
    refine target_of_getElem? hat ?_
    have hcount : (s.table.sort.select s.cursor).shown.length = s.table.shown.length := by
      rw [shown_select_sort, List.length_modify, Rows.plain, List.length_map, length_shown_sort]
    rw [hal.length_shown, hal.selected]
    show min (s.table.sort.select s.cursor).selected
      ((s.table.sort.select s.cursor).shown.length - 1) = index
    rw [hcount, selected_select_sort, indexUnder]
    omega
  refine ⟨r, hmarked, hat, ?_, Session.dispatch_of_target htarget act, fun action => ?_⟩
  · rw [hr₀, Row.bare, hr]; rfl
  · rw [Session.step, Session.dispatch_of_target htarget]
    exact congrArg (r.id :: ·) (Session.acted_act u r.id action)

/-- With the cursor past the end, the last row in order stays marked and is acted on. -/
theorem dispatch_marked_past_end :
    let s : Session :=
      { table := Table.load {} [{ id := ['b'] }, { id := ['a'] }], cursor := ⟨7⟩ }
    let steps := [Step.sort, .cursorHome, .resize 1 0 9 4, .mount, .unmount, .render,
      .fail (some ⟨[], []⟩), .mount, .remount]
    (s.table.mounted ∧ s.table.shown ≠ [] ∧ s.render.1.Idle steps) ∧
      ∃ r : Row, (s.render.1.run steps).table.rows.filter (·.highlighted) = [r] ∧ r.id = ['b'] ∧
        ((s.render.1.run steps).dispatch fun s id => s.act id .tell).answer = .told r.id := by
  intro s steps
  have hshown : s.table.shown ≠ [] := List.cons_ne_nil _ _
  have hidle : s.render.1.Idle steps :=
    ⟨trivial, trivial, trivial, .inl rfl, trivial, Bool.noConfusion, trivial, .inr rfl, rfl,
      trivial⟩
  refine ⟨⟨rfl, hshown, hidle⟩, ?_⟩
  obtain ⟨r, hmarked, -, hr, hact, -⟩ :=
    dispatch_marked s rfl hshown steps hidle fun s id => s.act id .tell
  have hid : some ['b'] = some r.id := congrArg (Option.map Row.id) hr
  exact ⟨r, hmarked, (Option.some.inj hid).symm, congrArg Outcome.answer hact⟩

end DockConsole.Table
