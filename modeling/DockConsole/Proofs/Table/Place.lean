import DockConsole.Proofs.Header.TitleLine
import DockConsole.Proofs.Table.Containment
import DockConsole.Proofs.Table.Uses

/-!
A table in use keeps within its place.

Header and rows are given the place of the table when it is loaded and when it is moved, and at no
other time. That is often enough: whatever is done in between, a mounted table is one whose header
and rows stand where it does, so nothing it draws is outside of its place.
-/

namespace DockConsole

namespace Table

open Session

/-! ### The gaps between the columns -/

lemma header_render (t : Table) (cursor : Cursor) : (t.render cursor).1.header = t.header := by
  rw [render]
  split <;> rfl

lemma spacing_reload (s : Session) :
    s.reload.session.table.header.spacing = s.table.header.spacing := by
  rw [reload]
  split <;> rfl

/-- Whatever is done with a table, the gaps between its columns stay as wide. -/
lemma spacing_step (s : Session) (step : Step) :
    (s.step step).session.table.header.spacing = s.table.header.spacing := by
  cases step with
  | mount =>
    rw [Session.step, mount]
    split
    · rfl
    · exact spacing_reload s
  | remount => exact spacing_reload s
  | render => exact congrArg Header.spacing (header_render s.table s.cursor)
  | dispatch action =>
    rw [Session.step, dispatch]
    split
    · rfl
    · next id _ =>
      cases action with
      | render => exact congrArg Header.spacing (header_render s.table s.cursor)
      | remount => exact (session_act_remount s id).symm ▸ spacing_reload s
      | _ => rfl
  | _ => rfl

lemma spacing_run (s : Session) (steps : List Step) :
    (s.run steps).table.header.spacing = s.table.header.spacing := by
  induction steps generalizing s with
  | nil => rfl
  | cons step steps ih => exact (ih _).trans (spacing_step s step)

/-! ### The place -/

lemma Holds.placed_of_mounted {t : Table} {h : History} (hh : t.Holds h) (hmounted : t.mounted) :
    t.Placed := hh.placed hmounted ▸ placed_align t

/-- A title starts at the left end of its line, if it has a column there. -/
lemma get?_titleLine_left {ch : Char} {title : Text} {count : Int} {caption : Text}
    {x y width : Int} (hx : 0 ≤ x) (hy : 0 ≤ y) (hwidth : 0 < width) :
    (titleLine (ch :: title) count caption x y width).get? ⟨x, y⟩ = some ⟨[ch], .title⟩ := by
  have hfirst : (Canvas.clip (counted (ch :: title) count ++ caption) (some width))[0]? =
      some ch := by
    rw [Canvas.getElem?_clip, if_pos (by omega)]
    rfl
  have hlength : 0 < (counted (ch :: title) count).length := Nat.succ_pos _
  simp only [get?_titleLine, Int.le_refl, hx, hy, and_self, if_true, Int.sub_self,
    Int.toNat_zero, hfirst, Option.map_some, hlength]

/-- The first cell of a drawing is where the table starts, if it has a column there. -/
lemma get?_render_corner {t : Table} (hmounted : t.mounted) (cursor : Cursor) (hx : 0 ≤ t.x)
    (hy : 0 ≤ t.y) (hwidth : 0 < t.width) :
    (t.render cursor).2.get? ⟨t.x, t.y⟩ = some ⟨['C'], .title⟩ := by
  rw [snd_render t hmounted, get?_draw_eq_some, get?_top_eq_some, titled_render hmounted]
  exact .inl (.inl (get?_titleLine_left hx hy hwidth))

/-- **Containment**: in every state, after any uses of a table that starts out unmounted, at any
place, no cell of its drawing is off the screen, left or right of the table, above its first line
or below the lines that it has room for; a table without columns draws nothing. While it is mounted
its header and rows stand where it does, and its first cell is drawn if it has one. -/
theorem render_inside (s₀ : Session) (hfresh : s₀.Fresh) (hspacing : 0 ≤ s₀.table.header.spacing)
    (uses : List Use) :
    let s := s₀.useAll uses
    let t := s.table
    (∀ p cell, s.render.2.get? p = some cell →
        (0 ≤ p.x ∧ 0 ≤ p.y) ∧ (t.x ≤ p.x ∧ p.x < t.x + t.width) ∧
          t.y ≤ p.y ∧ p.y < t.y + 2 + max 0 t.height) ∧
      (t.width ≤ 0 → s.render.2 = .empty) ∧
      (t.mounted →
        (t.header.x = t.x ∧ (t.header.width : Int) = max 0 t.width) ∧
          (∀ r ∈ t.rows, r.x = t.x ∧ (r.width : Int) = max 0 t.width) ∧
          (0 ≤ t.x → 0 ≤ t.y → 0 < t.width →
            s.render.2.get? ⟨t.x, t.y⟩ = some ⟨['C'], .title⟩)) := by
  intro s t
  have hh : t.Holds _ := holds_useAll hfresh.holds uses
  have hspaced : 0 ≤ t.header.spacing := by
    show 0 ≤ (s₀.useAll uses).table.header.spacing
    rw [useAll_eq_run, spacing_run]
    exact hspacing
  have hinside : ∀ p cell, s.render.2.get? p = some cell →
      (t.x ≤ p.x ∧ p.x < t.x + t.width) ∧ t.y ≤ p.y ∧ p.y < t.y + 2 + max 0 t.height := by
    intro p cell hcell
    by_cases hmounted : t.mounted
    · exact inside_render (hh.placed_of_mounted hmounted) hspaced s.cursor hcell
    · have hblank : s.render.2 = .empty := congrArg Prod.snd (render_of_not_mounted hmounted s.cursor)
      rw [hblank, Canvas.get?_empty] at hcell
      cases hcell
  refine ⟨fun p cell hcell => ⟨Canvas.inside_of_get? hcell, hinside p cell hcell⟩,
    fun hwidth => ?_, fun hmounted => ?_⟩
  · refine Canvas.ext_get? fun p => ?_
    rw [Canvas.get?_empty, Option.eq_none_iff_forall_ne_some]
    intro cell hcell
    have := hinside p cell hcell
    omega
  · have hplaced := hh.placed_of_mounted hmounted
    have hclamped : (t.width.toNat : Int) = max 0 t.width := by omega
    refine ⟨⟨hplaced.x, by rw [hplaced.width, hclamped]⟩, fun r hr => ?_, fun hx hy hwidth =>
      get?_render_corner hmounted s.cursor hx hy hwidth⟩
    obtain ⟨hx, hwidth⟩ := hplaced.rows r hr
    exact ⟨hx, by rw [hwidth, hclamped]⟩

/-- Loaded by an action within an action, then moved to begin left of the screen, with no room for
rows: the title and the column titles are cut at the sixth column. -/
theorem render_inside_left_of_screen :
    let s₀ : Session :=
      { table := { x := 4, y := 3, width := 60, height := 5 }, supply := [{ id := ['a'] }] }
    let s := s₀.useAll [.step .mount, .act [.step .toggleShowAll, .act [.step .remount]],
      .step (.resize (-3) 1 9 (-4)), .step .render]
    (s₀.Fresh ∧ 0 ≤ s₀.table.header.spacing) ∧ (s.table.mounted ∧ s.table.showAll) ∧
      s.render.2.get? ⟨5, 1⟩ = some ⟨['r'], .title⟩ ∧
      ∀ p cell, s.render.2.get? p = some cell → p.x < 6 ∧ 1 ≤ p.y ∧ p.y < 3 := by
  intro s₀ s
  have hfresh : s₀.Fresh := ⟨rfl, rfl⟩
  have hspacing : 0 ≤ s₀.table.header.spacing := by decide
  refine ⟨⟨hfresh, hspacing⟩, by decide +kernel, by decide +kernel, fun p cell hcell => ?_⟩
  obtain ⟨-, ⟨-, hx⟩, htop, hbottom⟩ := (render_inside s₀ hfresh hspacing _).1 p cell hcell
  exact ⟨hx, htop, hbottom⟩

end Table

end DockConsole
