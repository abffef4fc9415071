import DockConsole.Proofs.Canvas.Runs
import DockConsole.Screen

/-!
What painting leaves on the screen.

A call that adds a text writes its characters into consecutive columns. All the calls that paint a
canvas together write its cells, each once, as far as they are on the screen, and nothing else.
-/

namespace DockConsole

/-- One character written on the screen. -/
structure Stroke where
  place : Pos
  char : Char
  attr : Int
deriving DecidableEq, Repr

namespace Screen

/-- The characters of a text in consecutive columns from `x` on. -/
def strokes (y x attr : Int) : Text → List Stroke
  | [] => []
  | ch :: s => ⟨⟨x, y⟩, ch, attr⟩ :: strokes y (x + 1) attr s

end Screen

/-- What a call writes. A negative limit is none. -/
def ScreenCall.strokes : ScreenCall → List Stroke
  | .addText y x text attr => Screen.strokes y x attr text
  | .addTextUpTo y x text limit attr =>
    Screen.strokes y x attr (if limit < 0 then text else text.take limit.toNat)
  | _ => []

/-- The position is on the screen and not in its last column. -/
def ScreenSize.Shows (size : ScreenSize) (p : Pos) : Prop :=
  p.y < size.rows ∧ p.x < size.columns - 1

instance (size : ScreenSize) : DecidablePred size.Shows := fun p =>
  inferInstanceAs (Decidable (p.y < size.rows ∧ p.x < size.columns - 1))

namespace Screen

/-- A cell as the theme paints it. -/
def brush (theme : Theme) (e : Pos × Cell) : List Stroke :=
  e.2.glyph.map fun ch => ⟨e.1, ch, theme.attr e.2.style⟩

lemma strokes_eq_brush (theme : Theme) (y x : Int) (style : Style) (s : Text) :
    strokes y x (theme.attr style) s = (Canvas.spell y x style s).flatMap (brush theme) := by
  induction s generalizing x with
  | nil => rfl
  | cons ch s ih =>
    rw [strokes, Canvas.spell, List.flatMap_cons, ih]
    rfl

lemma place_of_mem_strokes {y x attr : Int} {s : Text} {e : Stroke} (h : e ∈ strokes y x attr s) :
    e.place.y = y ∧ x ≤ e.place.x ∧ e.place.x < x + s.length := by
  induction s generalizing x with
  | nil => cases h
  | cons ch s ih =>
    rw [List.length_cons]
    rcases List.mem_cons.mp h with rfl | h
    · simp only [true_and]
      omega
    · have := ih h
      omega

/-- A text cut after `n` characters writes the columns before `x + n`. -/
lemma strokes_take (y x attr : Int) (n : ℕ) (s : Text) :
    strokes y x attr (s.take n) = (strokes y x attr s).filter (·.place.x < x + n) := by
  induction s generalizing x n with
  | nil => rw [List.take_nil]; rfl
  | cons ch s ih =>
    cases n with
    | zero =>
      refine (List.filter_eq_nil_iff.mpr fun e he => ?_).symm
      have := place_of_mem_strokes he
      simp only [decide_eq_true_eq]
      omega
    | succ n =>
      have hshift : x + 1 + (n : Int) = x + (n + 1 : ℕ) := by omega
      rw [List.take_succ_cons, strokes, strokes, ih, hshift, List.filter_cons_of_pos]
      simp only [decide_eq_true_eq]
      omega

/-- A text that starts on the screen is added as far as there is room before the last column. -/
lemma addClipped_eq (size : ScreenSize) (y x : Int) (text : Text) (attr : Int) :
    addClipped size y x text attr =
      if y < size.rows ∧ x < size.columns then
        [.addText y x (text.take (size.columns - x - 1).toNat) attr]
      else [] := by
  unfold addClipped
  by_cases hon : y < size.rows ∧ x < size.columns
  · have hroom : 0 ≤ size.columns - x - 1 := by omega
    rw [if_neg (by omega), if_pos hon, Text.upTo, if_pos hroom]
  · rw [if_pos (by omega), if_neg hon]

/-- A clipped text writes those of its characters that come to stand on the screen. -/
lemma strokes_addClipped (size : ScreenSize) (y x : Int) (text : Text) (attr : Int) :
    (addClipped size y x text attr).flatMap ScreenCall.strokes =
      (strokes y x attr text).filter (size.Shows ·.place) := by
  rw [addClipped_eq]
  split
  · next hon =>
    rw [List.flatMap_singleton, ScreenCall.strokes, strokes_take]
    refine List.filter_congr fun e he => decide_eq_decide.mpr ?_
    have := place_of_mem_strokes he
    show e.place.x < _ ↔ e.place.y < size.rows ∧ e.place.x < size.columns - 1
    omega
  · next hoff =>
    refine (List.filter_eq_nil_iff.mpr fun e he hshown => ?_).symm
    obtain ⟨hrow, hcolumn⟩ : size.Shows e.place := of_decide_eq_true hshown
    have := place_of_mem_strokes he
    omega

/-- What is painted of a canvas, call by call, are its cells in reading order. -/
lemma strokes_paint (size : ScreenSize) (theme : Theme) {c : Canvas} (h : c.Single) :
    (paint size theme c).flatMap ScreenCall.strokes =
      (c.cells.flatMap (brush theme)).filter (size.Shows ·.place) := by
  have hrun (r : Canvas.Run) :
      (addClipped size r.y r.x r.text (theme.attr r.style)).flatMap ScreenCall.strokes =
        (r.cells.flatMap (brush theme)).filter (size.Shows ·.place) := by
    rw [strokes_addClipped, strokes_eq_brush]
    rfl
  rw [paint, List.flatMap_assoc]
  simp only [hrun]
  rw [← Canvas.flatMap_cells_runs h, List.flatMap_assoc, List.filter_flatMap]

/-- Where every cell holds one character, the brush is put to each place once. -/
lemma places_brush (theme : Theme) {c : Canvas} (h : c.Single) :
    (c.cells.flatMap (brush theme)).map (·.place) = c.cells.map (·.1) := by
  rw [List.map_flatMap, List.map_eq_flatMap]
  refine List.flatMap_congr fun e he => ?_
  obtain ⟨ch, hch⟩ := h e.1 e.2 (Canvas.mem_cells.mp he)
  rw [brush, hch]
  rfl

lemma mem_brush (theme : Theme) {c : Canvas} (h : c.Single) {s : Stroke} :
    s ∈ c.cells.flatMap (brush theme) ↔
      ∃ cell, c.get? s.place = some cell ∧ cell.glyph = [s.char] ∧
        s.attr = theme.attr cell.style := by
  rw [List.mem_flatMap]
  constructor
  · rintro ⟨⟨p, cell⟩, he, hs⟩
    obtain ⟨ch, hch⟩ := h p cell (Canvas.mem_cells.mp he)
    rw [brush, hch, List.map_singleton, List.mem_singleton] at hs
    subst hs
    exact ⟨cell, Canvas.mem_cells.mp he, hch, rfl⟩
  · rintro ⟨cell, hcell, hch, hattr⟩
    refine ⟨(s.place, cell), Canvas.mem_cells.mpr hcell, ?_⟩
    rw [brush, hch, List.map_singleton, List.mem_singleton, ← hattr]

/-- A canvas is painted by adding texts, each where a cell is, and by nothing else. -/
lemma paint_adds (size : ScreenSize) (theme : Theme) (c : Canvas) :
    ∀ call ∈ paint size theme c,
      ∃ y x text attr cell, call = .addText y x text attr ∧ c.get? ⟨x, y⟩ = some cell := by
  intro call hcall
  obtain ⟨r, hr, hcall⟩ := List.mem_flatMap.mp hcall
  obtain ⟨cell, hcell⟩ := Canvas.exists_cell_of_mem_runs hr
  rw [addClipped_eq] at hcall
  split at hcall
  · exact ⟨_, _, _, _, cell, List.mem_singleton.mp hcall, hcell⟩
  · cases hcall

/-- What is painted of a canvas, character by character. -/
def painted (size : ScreenSize) (theme : Theme) (c : Canvas) : List Stroke :=
  (paint size theme c).flatMap ScreenCall.strokes

lemma nodup_painted (size : ScreenSize) (theme : Theme) {c : Canvas} (h : c.Single) :
    ((painted size theme c).map (·.place)).Nodup := by
  rw [painted, strokes_paint size theme h]
  refine List.Nodup.sublist (List.filter_sublist.map _) ?_
  rw [places_brush theme h]
  exact c.nodup_cells

lemma mem_painted (size : ScreenSize) (theme : Theme) {c : Canvas} (h : c.Single) {s : Stroke} :
    s ∈ painted size theme c ↔
      size.Shows s.place ∧
        ∃ cell, c.get? s.place = some cell ∧ cell.glyph = [s.char] ∧
          s.attr = theme.attr cell.style := by
  rw [painted, strokes_paint size theme h, List.mem_filter, decide_eq_true_eq, and_comm,
    mem_brush theme h]

/-- A canvas whose cells all are on the screen, and not in the last column, is painted whole. -/
lemma painted_whole {size : ScreenSize} (theme : Theme) {c : Canvas} (h : c.Single)
    (hshown : ∀ p cell, c.get? p = some cell → size.Shows p) {p : Pos} {cell : Cell}
    (hcell : c.get? p = some cell) :
    ∃ ch, cell.glyph = [ch] ∧ ⟨p, ch, theme.attr cell.style⟩ ∈ painted size theme c := by
  obtain ⟨ch, hch⟩ := h p cell hcell
  exact ⟨ch, hch, (mem_painted size theme h).mpr ⟨hshown p cell hcell, cell, hcell, hch, rfl⟩⟩

/-- **Painting is faithful**: the texts that are added to paint a canvas write each of its cells that
is on the screen, and not in the last column, once, with its character and the attribute of its
style, and write nothing anywhere else. -/
theorem paint_faithful (size : ScreenSize) (theme : Theme) (c : Canvas) (h : c.Single) :
    let written := (paint size theme c).flatMap ScreenCall.strokes
    (∀ call ∈ paint size theme c, ∃ y x text attr, call = .addText y x text attr) ∧
      (written.map (·.place)).Nodup ∧
      ∀ s : Stroke, s ∈ written ↔
        (s.place.y < size.rows ∧ s.place.x < size.columns - 1) ∧
          ∃ cell, c.get? s.place = some cell ∧ cell.glyph = [s.char] ∧
            s.attr = theme.attr cell.style := by
  refine ⟨fun call hcall => ?_, nodup_painted size theme h, fun _ => mem_painted size theme h⟩
  obtain ⟨y, x, text, attr, -, hadds, -⟩ := paint_adds size theme c call hcall
  exact ⟨y, x, text, attr, hadds⟩

/-- A text that starts left of the screen and one that runs across its right edge, which takes the
last of its columns with it, and a line below the screen. -/
theorem paint_faithful_at_edge :
    let c := ((Canvas.empty.write (-1) 0 .title "ab".toList).write 1 0 .plain "cde".toList).write
      0 1 .title ['f']
    let written := (paint ⟨1, 4⟩ .monochrome c).flatMap ScreenCall.strokes
    c.Single ∧ (written.map (·.place)).Nodup ∧
      ⟨⟨0, 0⟩, 'b', Attr.bold⟩ ∈ written ∧ ⟨⟨2, 0⟩, 'd', 0⟩ ∈ written ∧
      ∀ s ∈ written, s.place ≠ ⟨3, 0⟩ ∧ s.place ≠ ⟨0, 1⟩ := by
  intro c written
  have hsingle : c.Single :=
    ((Canvas.single_empty.write _ _ _ _).write _ _ _ _).write _ _ _ _
  obtain ⟨-, hnodup, hiff⟩ := paint_faithful ⟨1, 4⟩ .monochrome c hsingle
  refine ⟨hsingle, hnodup, ?_, ?_, fun s hs => ?_⟩
  · exact (hiff _).mpr ⟨by decide, ⟨['b'], .title⟩, by decide +kernel, rfl, rfl⟩
  · exact (hiff _).mpr ⟨by decide, ⟨['d'], .plain⟩, by decide +kernel, rfl, rfl⟩
  · obtain ⟨⟨hrow, hcolumn⟩, -⟩ := (hiff s).mp hs
    constructor
    · intro hs
      rw [hs] at hcolumn
      exact absurd hcolumn (by decide)
    · intro hs
      rw [hs] at hrow
      exact absurd hrow (by decide)

end Screen

end DockConsole
