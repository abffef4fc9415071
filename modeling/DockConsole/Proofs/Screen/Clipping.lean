import DockConsole.HelpBar
import DockConsole.Page
import DockConsole.Proofs.Screen.Painting

/-!
Nothing is drawn off the screen.

Runs of a canvas start where it has a cell, the help bar starts the last line, and the lines of a page
start one below the other from the top. From there each text is cut before the last column, and one
that would start off the screen is not added at all.
-/

namespace DockConsole

/-- The call adds a text that starts on the screen and ends before its last column, or none. -/
def ScreenCall.Within (size : ScreenSize) : ScreenCall → Prop
  | .addText y x text _ =>
    (0 ≤ y ∧ y < size.rows) ∧ (0 ≤ x ∧ x < size.columns) ∧ 0 ≤ size.columns - x - 1 ∧
      x + text.length ≤ size.columns - 1
  | .addTextUpTo .. => False
  | _ => True

/-- What it writes is on the screen, and not in its last column. -/
lemma ScreenCall.Within.strokes {size : ScreenSize} {call : ScreenCall} (h : call.Within size) :
    ∀ s ∈ call.strokes, (0 ≤ s.place.y ∧ 0 ≤ s.place.x) ∧ size.Shows s.place := by
  intro s hs
  cases call with
  | addText y x text attr =>
    obtain ⟨⟨htop, hrow⟩, ⟨hleft, -⟩, -, hright⟩ := h
    have hplace := Screen.place_of_mem_strokes hs
    unfold ScreenSize.Shows
    omega
  | addTextUpTo => exact h.elim
  | _ => cases hs

namespace Screen

variable {size : ScreenSize}

lemma within_addClipped {y x : Int} (hy : 0 ≤ y) (hx : 0 ≤ x) (text : Text) (attr : Int) :
    ∀ call ∈ addClipped size y x text attr, call.Within size := by
  intro call hcall
  rw [addClipped_eq] at hcall
  split at hcall
  · next hon =>
    rw [List.mem_singleton.mp hcall, ScreenCall.Within, List.length_take]
    omega
  · cases hcall

lemma within_paint (theme : Theme) (c : Canvas) :
    ∀ call ∈ paint size theme c, call.Within size := by
  intro call hcall
  obtain ⟨r, hr, hcall⟩ := List.mem_flatMap.mp hcall
  obtain ⟨cell, hcell⟩ := Canvas.exists_cell_of_mem_runs hr
  obtain ⟨hx, hy⟩ := Canvas.inside_of_get? hcell
  exact within_addClipped hy hx r.text _ call hcall

lemma within_helpBar (hrows : 1 ≤ size.rows) (theme : Theme) (selected count : Int)
    (message : Text) :
    ∀ call ∈ HelpBar.draw size theme selected count message, call.Within size :=
  within_addClipped (by omega) (Int.le_refl 0) _ _

lemma within_drawLines (attr rest : Int) {y : Int} (hy : 0 ≤ y) (lines : List Text) :
    ∀ call ∈ Page.drawLines size attr rest y lines, call.Within size := by
  induction lines generalizing attr y with
  | nil =>
    intro call hcall
    cases hcall
  | cons line lines ih =>
    intro call hcall
    rcases List.mem_append.mp hcall with hcall | hcall
    · exact within_addClipped hy (Int.le_refl 0) line attr call hcall
    · exact ih rest (by omega) call hcall

lemma within_page (theme : Theme) (lines : List Text) :
    ∀ call ∈ Page.draw size theme lines, call.Within size := by
  intro call hcall
  rw [Page.draw, List.append_assoc] at hcall
  rcases List.mem_append.mp hcall with hcall | hcall
  · obtain rfl := List.mem_singleton.mp hcall
    exact trivial
  · rcases List.mem_append.mp hcall with hcall | hcall
    · exact within_drawLines _ _ (Int.le_refl 0) lines call hcall
    · rcases List.mem_pair.mp hcall with rfl | rfl <;> exact trivial

/-- **Drawing keeps within the screen**: whatever its size, if it has a line, each text that is added
to paint a canvas, to draw the help bar or to show a page, the help as well as the details of a
container, starts on the screen and ends before the last column; where it is cut there is room for
it. So nothing is written off the screen or into its last column. -/
theorem drawn_within_screen {size : ScreenSize} (hrows : 1 ≤ size.rows) (theme : Theme) (c : Canvas)
    (selected count : Int) (message : Text) (lines : List Text) :
    ∀ call ∈ paint size theme c ++ HelpBar.draw size theme selected count message ++
        Page.draw size theme lines,
      call.Within size ∧
        ∀ s ∈ call.strokes, (0 ≤ s.place.y ∧ s.place.y < size.rows) ∧
          0 ≤ s.place.x ∧ s.place.x < size.columns - 1 := by
  intro call hcall
  have hwithin : call.Within size := by
    rcases List.mem_append.mp hcall with hcall | hpage
    · rcases List.mem_append.mp hcall with hpainted | hbar
      · exact within_paint theme c call hpainted
      · exact within_helpBar hrows theme selected count message call hbar
    · exact within_page theme lines call hpage
  refine ⟨hwithin, fun s hs => ?_⟩
  obtain ⟨⟨htop, hleft⟩, hbottom, hright⟩ := hwithin.strokes s hs
  exact ⟨⟨htop, hbottom⟩, hleft, hright⟩

/-- The only column of a screen is its last: texts are added there, cut to nothing. -/
theorem drawn_within_screen_of_one_column :
    let size : ScreenSize := ⟨1, 1⟩
    let c := Canvas.empty.write (-1) 0 .title "abc".toList
    1 ≤ size.rows ∧ paint size .monochrome c = [.addText 0 0 [] Attr.bold] ∧
      HelpBar.draw size .monochrome 4 2 "failed".toList = [.addText 0 0 [] Attr.reverse] ∧
      ∀ call ∈ paint size .monochrome c ++ HelpBar.draw size .monochrome 4 2 "failed".toList ++
          Page.draw size .monochrome Page.help,
        call.Within size ∧ call.strokes = [] := by
  intro size c
  have hrows : 1 ≤ size.rows := by decide
  refine ⟨hrows, by decide +kernel, by decide +kernel, fun call hcall => ?_⟩
  obtain ⟨hwithin, hinside⟩ :=
    drawn_within_screen hrows .monochrome c 4 2 "failed".toList Page.help call hcall
  refine ⟨hwithin, List.eq_nil_iff_forall_not_mem.mpr fun s hs => ?_⟩
  have hcolumns : s.place.x < 1 - 1 := (hinside s hs).2.2
  have hleft := (hinside s hs).2.1
  omega

end Screen

end DockConsole
