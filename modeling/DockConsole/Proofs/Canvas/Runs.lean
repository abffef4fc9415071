import DockConsole.Canvas
import Mathlib.Data.List.Basic

/-!
The runs of a canvas, spelt out.

Where every cell holds one character, a run is a text whose characters stand in adjacent columns,
and the runs one after the other give back the cells in reading order.
-/

namespace DockConsole.Canvas

/-- Every cell of the canvas holds one character. -/
def Single (c : Canvas) : Prop := ∀ p cell, c.get? p = some cell → ∃ ch, cell.glyph = [ch]

variable {c d : Canvas}

lemma single_empty : Single empty := fun p cell h => by
  rw [get?_empty] at h
  cases h

lemma Single.set (h : c.Single) (p : Pos) {cell : Cell} (hcell : ∃ ch, cell.glyph = [ch]) :
    (c.set p cell).Single := by
  intro q d hq
  rw [get?_set] at hq
  split at hq
  · exact Option.some.inj hq ▸ hcell
  · exact h q d hq

lemma Single.write (h : c.Single) (x y : Int) (style : Style) (s : Text) :
    (c.write x y style s).Single := by
  intro p cell hp
  rw [get?_write] at hp
  split at hp
  · rcases Option.or_eq_some_iff.mp hp with hs | ⟨-, hc⟩
    · obtain ⟨ch, -, rfl⟩ := Option.map_eq_some_iff.mp hs
      exact ⟨ch, rfl⟩
    · exact h p cell hc
  · exact h p cell hp

lemma Single.fill (h : c.Single) (x y width : Int) (style : Style) :
    (c.fill x y width style).Single := h.write x y style _

lemma Single.merge (hc : c.Single) (hd : d.Single) : (c.merge d).Single := by
  intro p cell hp
  rw [get?_merge] at hp
  rcases Option.or_eq_some_iff.mp hp with h | ⟨-, h⟩
  · exact hd p cell h
  · exact hc p cell h

lemma Single.exists_glyph (h : c.Single) : ∀ e ∈ c.cells, ∃ ch, e.2.glyph = [ch] := fun e he =>
  h e.1 e.2 (mem_cells.mp he)

/-- One character per cell, rightwards from `(x, y)`. -/
def spell (y x : Int) (style : Style) : Text → List (Pos × Cell)
  | [] => []
  | ch :: s => (⟨x, y⟩, ⟨[ch], style⟩) :: spell y (x + 1) style s

def Run.cells (r : Run) : List (Pos × Cell) := spell r.y r.x r.style r.text

lemma cells_addRun {e : Pos × Cell} {ch : Char} (he : e.2.glyph = [ch]) (rs : List Run) :
    (addRun e rs).flatMap Run.cells = e :: rs.flatMap Run.cells := by
  obtain ⟨⟨x, y⟩, ⟨glyph, style⟩⟩ := e
  obtain rfl : glyph = [ch] := he
  cases rs with
  | nil => rfl
  | cons r rs =>
    rw [addRun]
    split
    · next h =>
      -- the run starts in the next column, so the cell is its new first character
      obtain ⟨hy, hx, hstyle⟩ := h
      simp only [List.flatMap_cons, Run.cells, List.cons_append, List.nil_append, spell, hy, hx,
        hstyle]
    · rfl

lemma flatMap_cells_runs (h : c.Single) : c.runs.flatMap Run.cells = c.cells := by
  have hsingle := h.exists_glyph
  rw [runs]
  generalize c.cells = es at hsingle
  induction es with
  | nil => rfl
  | cons e es ih =>
    obtain ⟨ch, hch⟩ := hsingle e List.mem_cons_self
    rw [List.foldr_cons, cells_addRun hch, ih fun f hf => hsingle f (List.mem_cons_of_mem e hf)]

/-- Every run starts at a cell. -/
lemma exists_cell_of_mem_runs {r : Run} (hr : r ∈ c.runs) :
    ∃ cell, c.get? ⟨r.x, r.y⟩ = some cell := by
  have hstart (es : List (Pos × Cell)) (r : Run) (hr : r ∈ es.foldr addRun []) :
      ∃ e ∈ es, e.1 = ⟨r.x, r.y⟩ := by
    induction es generalizing r with
    | nil => cases hr
    | cons e es ih =>
      have hlater (s : Run) (hs : s ∈ es.foldr addRun []) : ∃ f ∈ e :: es, f.1 = ⟨s.x, s.y⟩ := by
        obtain ⟨f, hf, hplace⟩ := ih s hs
        exact ⟨f, List.mem_cons_of_mem e hf, hplace⟩
      rw [List.foldr_cons] at hr
      generalize es.foldr addRun [] = rs at hr hlater
      cases rs with
      | nil =>
        rw [addRun, List.mem_singleton] at hr
        exact ⟨e, List.mem_cons_self, hr ▸ rfl⟩
      | cons s rs =>
        rw [addRun] at hr
        split at hr <;> rcases List.mem_cons.mp hr with rfl | hr
        · exact ⟨e, List.mem_cons_self, rfl⟩
        · exact hlater r (List.mem_cons_of_mem s hr)
        · exact ⟨e, List.mem_cons_self, rfl⟩
        · exact hlater r hr
  obtain ⟨e, he, hplace⟩ := hstart c.cells r hr
  exact ⟨e.2, mem_cells.mp (hplace ▸ he)⟩

/-- No position is listed twice. -/
lemma nodup_cells (c : Canvas) : (c.cells.map (·.1)).Nodup := by
  rw [List.Nodup, List.pairwise_map]
  refine c.cells_ordered.imp fun {e f} h heq => ?_
  rw [heq] at h
  omega

end DockConsole.Canvas
