import DockConsole.Proofs.App.Navigation
import DockConsole.Proofs.Table.Marks

/-!
Where the cursor lands, and what is highlighted then.

A motion counts the rows in the order they are held in, and a drawing brings them in order first and
counts again. Both counts are the same, so as long as the list, the filter and the cursor stay as
they are, every drawing highlights the row that the cursor was moved to, in whatever order.
-/

namespace DockConsole

namespace Table

/-- The step leaves the list, the filter and the cursor alone. -/
def Step.Calm : Step → Prop
  | .render | .sort | .resize .. | .supply _ | .fail _ => True
  | .dispatch action => action ≠ .remount
  | _ => False

namespace Session

/-- The list and the filter are as they were, in whatever order the rows are held and wherever they
are drawn, and the cursor is where it was. What was mounted still is. -/
structure SameList (s t : Session) : Prop where
  rows : (t.table.rows.map Row.bare).Perm (s.table.rows.map Row.bare)
  pattern : t.table.pattern = s.table.pattern
  cursor : t.cursor = s.cursor
  mounted : s.table.mounted → t.table.mounted

namespace SameList

variable {s t u : Session}

lemma of_eq (htable : t.table = s.table) (hcursor : t.cursor = s.cursor) : SameList s t := by
  refine ⟨?_, ?_, hcursor, ?_⟩ <;> rw [htable]
  exact id

lemma trans (h : SameList s t) (k : SameList t u) : SameList s u :=
  ⟨k.rows.trans h.rows, k.pattern.trans h.pattern, k.cursor.trans h.cursor, k.mounted ∘ h.mounted⟩

/-- The filter lets as many rows through. -/
lemma length_shown (h : SameList s t) : t.table.shown.length = s.table.shown.length := by
  have hbare (t : Table) :
      t.shown.length = (Rows.filter (t.rows.map Row.bare) t.pattern).length := by
    rw [← Rows.map_filter (f := Row.bare) fun _ => rfl, List.length_map]
    rfl
  rw [hbare, hbare, h.pattern]
  exact (h.rows.filter _).length_eq

lemma resize (s : Session) (x y width height : Int) :
    SameList s { s with table := s.table.resize x y width height } := by
  refine ⟨?_, rfl, rfl, id⟩
  show ((s.table.rows.map _).map Row.bare).Perm _
  rw [List.map_map]
  rfl

/-- A drawing brings the rows in order, and only marks and places them besides. -/
lemma render (s : Session) : SameList s s.render.1 := by
  by_cases hmounted : s.table.mounted
  · refine ⟨?_, ?_, rfl, (Table.mounted_render s.table s.cursor).trans⟩
    · show ((s.table.render s.cursor).1.rows.map Row.bare).Perm _
      rw [Table.bare_render hmounted]
      exact Rows.sort_perm _ _
    · show (s.table.render s.cursor).1.pattern = _
      rw [Table.render_of_mounted hmounted]
      rfl
  · exact of_eq (by rw [Session.render, Table.render_of_not_mounted hmounted]) rfl

lemma act (s : Session) (id : Text) {action : Action} (h : action ≠ .remount) :
    SameList s (s.act id action).session := by
  cases action with
  | render => exact render s
  | remount => exact absurd rfl h
  | _ => exact of_eq rfl rfl

lemma step (s : Session) {x : Step} (h : x.Calm) : SameList s (s.step x).session := by
  cases x with
  | render => exact render s
  | resize x y width height => exact resize s x y width height
  | dispatch action =>
    rw [Session.step, session_dispatch]
    split
    · exact act s _ h
    · exact of_eq rfl rfl
  | sort => exact ⟨.refl _, rfl, rfl, id⟩
  | supply => exact of_eq rfl rfl
  | fail => exact of_eq rfl rfl
  | _ => exact h.elim

lemma run (s : Session) {steps : List Step} (h : ∀ x ∈ steps, x.Calm) :
    SameList s (s.run steps) := by
  induction steps generalizing s with
  | nil => exact of_eq rfl rfl
  | cons x steps ih =>
    have hx := step s (h x List.mem_cons_self)
    exact hx.trans (ih _ fun y hy => h y (List.mem_cons_of_mem x hy))

end SameList

end Session

end Table

namespace App

open Table (Session)

variable {a b : App}

lemma Shows.sameList {s : Session} (h : Shows s a) : s.SameList a.session :=
  .of_eq h.table.symm h.cursor.symm

lemma sameList_drawList (a : App) : a.session.SameList a.drawList.1.session :=
  (Session.SameList.resize a.session _ _ _ _).trans (Session.SameList.render _)

lemma marked_drawList (hmounted : a.table.mounted) :
    a.drawList.1.table.marked = a.drawList.1.table.shown[a.drawList.1.table.selected]?.toList := by
  have hlaid : a.layout.table.mounted := hmounted
  exact Table.marked_render hlaid a.cursor

lemma position_navigate_le (a : App) (m : Motion) :
    (a.navigate m).cursor.position ≤ a.table.shown.length - 1 := by
  cases m <;> simp only [navigate, Cursor.move, Cursor.home, Cursor.toLast] <;> omega

/-- With as many rows shown as the motion counted, a drawing has nothing to bring back. -/
lemma selected_of_settled {m : Motion} {lines : Int}
    (hlist : (a.navigate m).session.SameList b.session) (hb : Settled b.table b.cursor lines) :
    b.table.selected = (a.navigate m).cursor.position := by
  have hlength : b.table.shown.length = a.table.shown.length := hlist.length_shown
  have hcursor : b.cursor = (a.navigate m).cursor := hlist.cursor
  rw [hb.selected, hlength, hcursor]
  exact Nat.min_eq_left (position_navigate_le a m)

/-- **Landing**: wherever the cursor was, a motion leaves it on one of the rows shown, or at 0 if
there are none. Drawn in whatever order, as long as the list, the filter and the cursor are as the
motion left them, the table selects exactly the row that the cursor is on, and marks it alone. -/
theorem motion_lands {a : App} (hmounted : a.table.mounted) (m : Motion) :
    let cursor := (a.navigate m).cursor.position
    (0 ≤ (cursor : Int) ∧ (cursor : Int) ≤ max 0 ((a.table.shown.length : Int) - 1)) ∧
      ∀ b : App, (a.navigate m).session.SameList b.session →
        let t := b.drawList.1.table
        t.selected = b.cursor.position ∧ b.cursor.position = cursor ∧
          t.marked = t.shown[cursor]?.toList ∧
          (a.table.shown ≠ [] → ∃ r, t.shown[cursor]? = some r ∧ t.marked = [r]) := by
  intro cursor
  have hle : cursor ≤ a.table.shown.length - 1 := position_navigate_le a m
  refine ⟨by omega, ?_⟩
  intro b hb t
  have hdrawn := hb.trans (sameList_drawList b)
  have hselected : t.selected = cursor :=
    selected_of_settled hdrawn (settled_drawList (a := b) (hdrawn.mounted hmounted))
  have hcursor : b.cursor.position = cursor := congrArg Cursor.position hb.cursor
  have hmarked : t.marked = t.shown[cursor]?.toList := by
    rw [← hselected]
    exact marked_drawList (hb.mounted hmounted)
  refine ⟨hselected.trans hcursor.symm, hcursor, hmarked, fun hshown => ?_⟩
  have hpos := List.length_pos_iff.mpr hshown
  have hlength : t.shown.length = a.table.shown.length := hdrawn.length_shown
  have hr := List.getElem?_eq_getElem (l := t.shown) (i := cursor) (by omega)
  exact ⟨_, hr, by rw [hmarked, hr]; rfl⟩

/-- Two of three rows pass the filter, and the cursor is far past them. A step up brings it to the
second, which the table selects once it is sorted by name. -/
theorem motion_lands_from_past_end :
    let s : Session := ({ table := {}, supply := [{ id := ['a'], names := [['w', 'y']] },
      { id := ['b'], names := [['v']] }, { id := ['c'], names := [['w', 'x']] }] } : Session).run
        [.mount, .filter (some ['w']), .cursorToLast 5]
    let started := App.start { host := [] } {} ⟨6, 40⟩ 1 true
    let a := { started with table := s.table, cursor := s.cursor }
    let u := (a.navigate .up).session.run [.sort, .render, .sort, .sort]
    let b := { a with table := u.table, cursor := u.cursor }
    a.table.mounted ∧ b.table.sortMode = .byName ∧ (a.navigate .up).session.SameList b.session ∧
      b.drawList.1.table.selected = 1 ∧
      ∃ r, b.drawList.1.table.marked = [r] ∧ r.id = ['a'] := by
  intro s started a u b
  have hmounted : a.table.mounted := by decide +kernel
  have hsort : b.table.sortMode = .byName := by decide +kernel
  have hsame : (a.navigate .up).session.SameList b.session := by
    refine (Session.SameList.run _ ?_).trans (.of_eq rfl rfl)
    simp [Table.Step.Calm]
  obtain ⟨-, hlands⟩ := motion_lands hmounted .up
  obtain ⟨hselected, -, -, hmarked⟩ := hlands b hsame
  have hcursor : b.cursor.position = 1 := by decide +kernel
  obtain ⟨r, hr, hone⟩ := hmarked (by decide +kernel)
  have hid : b.drawList.1.table.shown[1]?.map Row.id = some ['a'] := by decide +kernel
  rw [show b.drawList.1.table.shown[1]? = some r from hr, Option.map_some, Option.some.injEq] at hid
  exact ⟨hmounted, hsort, hsame, hselected.trans hcursor, r, hone, hid⟩

/-! ### While the program runs on -/

/-- Keys that sort, inspect, show a page or edit the filter without accepting it, and a screen of
another size, all leave the list, the filter and the cursor alone. -/
lemma Run.sameList_run (r : Run) {waited : List Happening}
    (hcalm : ∀ x ∈ r.trace waited, x.Calm) :
    r.app.session.SameList (waited.foldl step r).app.session := by
  have hshows := shows_run (s := r.app.session) ⟨rfl, rfl⟩ waited
  exact (Session.SameList.run _ hcalm).trans hshows.sameList

/-- **Landing, in a run**: hit at the list, a key that moves leads at once to a frame, and that
frame and every later one of the list select the row that the cursor was moved to, until the list,
the filter or the cursor is changed. -/
theorem selected_after_landing (a : App) (pattern : Text) (colours : Bool)
    (script : List Happening) {key : Int} {m : Motion}
    (hgoing : (a.running pattern colours script).ending = none)
    (hlist : (a.running pattern colours script).waiting = .list)
    (hmounted : (a.running pattern colours script).app.table.mounted)
    (hkey : Motion.ofKey key = some m) :
    let r := a.running pattern colours script
    (∃ f, (r.step (.key key)).At f) ∧
      ∀ waited, (∀ x ∈ (r.step (.key key)).trace waited, x.Calm) →
        ∀ f, (a.running pattern colours (script ++ .key key :: waited)).At f →
          f.app.table.selected = (r.app.navigate m).cursor.position ∧
            f.app.cursor.position = (r.app.navigate m).cursor.position := by
  intro r
  obtain ⟨b, hb⟩ : ∃ b : App, { r.app with message := [] } = b := ⟨_, rfl⟩
  have hturn : r.turn key = { app := b.navigate m } := hb ▸ Run.turn_of_move hlist hkey
  have hlisted : (r.turn key).next = .list := by rw [hturn]
  obtain ⟨g, hg, happ⟩ := Run.at_key hgoing hlisted
  refine ⟨⟨g, hg⟩, fun waited hcalm f hf => ?_⟩
  have hmoved : (b.navigate m).session.SameList (r.step (.key key)).app.session := by
    rw [hg.app, happ, hturn]
    exact sameList_drawList _
  have hwaited := hmoved.trans (Run.sameList_run _ hcalm)
  have hdrawn := hf.drawn (pictures_running a pattern colours _)
  rw [running_append] at hf
  have hafter : (waited.foldl Run.step (r.step (.key key))).app = f.app := hf.app
  rw [hafter] at hwaited
  have hsettled := hdrawn.settled (hwaited.mounted (by rw [← hb]; exact hmounted))
  have hnavigate : (r.app.navigate m).cursor = (b.navigate m).cursor := by
    rw [← hb]
    cases m <;> rfl
  rw [hnavigate]
  exact ⟨selected_of_settled hwaited hsettled, congrArg Cursor.position hwaited.cursor⟩

end App

end DockConsole
