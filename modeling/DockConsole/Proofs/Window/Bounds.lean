import DockConsole.Proofs.Window.Convergence

/-!
How much of a list a window shows.

Whatever window was shown before, the one that follows the selection lies within the list and shows
all rows, or as many as there is room for. Of the window before it only the start counts, clamped
into the list, and that only if there are more rows than room.
-/

namespace DockConsole.Window

/-- The window lies within a list of `total` rows and shows as many of them as `height` has room
for. -/
structure Fits (w : Window) (total height : Int) : Prop where
  start_nonneg : 0 ≤ w.start
  start_le_stop : w.start ≤ w.stop
  stop_le : w.stop ≤ total
  size_eq : w.stop - w.start = min total (max 0 height)

variable {selected total height : Int}

lemma fits_follow (prev : Window) (h0 : 0 ≤ total) :
    (prev.follow selected total height).Fits total height := by
  rcases Int.lt_or_le height 0 with hneg | hpos
  · rw [follow, if_pos hneg]
    constructor <;> simp only <;> omega
  · rcases Int.lt_or_le height total with h | h
    · -- more rows than fit: wherever it is scrolled to, the start is brought within the list
      obtain ⟨s, hs⟩ : ∃ s, within (scroll (within prev.start total height) selected total height)
        total height = s := ⟨_, rfl⟩
      have hwithin := hs ▸ within_mem _ h
      rw [follow, if_neg (by omega), if_neg (by omega), hs]
      constructor <;> simp only <;> omega
    · rw [follow_of_fits prev hpos h]
      constructor <;> simp only <;> omega

lemma Fits.getElem?_slice {α : Type} {w : Window} (h : w.Fits total height) (rows : List α)
    (k : ℕ) :
    (w.slice rows)[k]? =
      if (k : Int) < w.stop - w.start then rows[w.start.toNat + k]? else none := by
  have := h.start_nonneg
  have := h.start_le_stop
  rw [slice, List.getElem?_drop, List.getElem?_take]
  exact ite_congr (propext (by omega)) (fun _ => rfl) fun _ => rfl

/-- The rows in the window stand in a row, with as many rows above them as the window starts
behind. -/
lemma Fits.exists_slice_append {α : Type} {w : Window} {rows : List α}
    (h : w.Fits rows.length height) :
    ∃ above below, rows = above ++ w.slice rows ++ below ∧ (above.length : Int) = w.start ∧
      ((w.slice rows).length : Int) = w.stop - w.start := by
  have := h.start_nonneg
  have := h.start_le_stop
  have := h.stop_le
  refine ⟨(rows.take w.stop.toNat).take w.start.toNat, rows.drop w.stop.toNat, ?_, ?_, ?_⟩
  · rw [slice, List.take_append_drop, List.take_append_drop]
  · rw [List.length_take, List.length_take]
    omega
  · rw [slice, List.length_drop, List.length_take]
    omega

/-- Windows that start alike, clamped into the list, are followed by the same window. -/
lemma follow_congr {v w : Window}
    (h : 0 ≤ height → height < total → within v.start total height = within w.start total height) :
    v.follow selected total height = w.follow selected total height := by
  rcases Int.lt_or_le height 0 with hneg | hpos
  · rw [follow, if_pos hneg, follow, if_pos hneg]
  · rcases Int.lt_or_le height total with hlt | hfits
    · rw [follow, follow, h hpos hlt]
    · rw [follow_of_fits v hpos hfits, follow_of_fits w hpos hfits]

/-- **Bounds**: whatever was shown before and wherever the selection is, the next window lies within
the list and has as many rows as there are, or as there is room for, one after the other. The
window before counts only through its start, clamped into the list, and not at all if all rows fit
or there is no screen. -/
theorem follow_bounds (prev : Window) (selected total height : Int) (h0 : 0 ≤ total) :
    let next := prev.follow selected total height
    (0 ≤ next.start ∧ next.start ≤ next.stop ∧ next.stop ≤ total ∧
        next.stop - next.start = min total (max 0 height)) ∧
      (∀ {α : Type} (rows : List α), rows.length = total →
        ∃ above below, rows = above ++ next.slice rows ++ below ∧
          (above.length : Int) = next.start ∧
          ((next.slice rows).length : Int) = min total (max 0 height)) ∧
      ∀ other : Window,
        (0 ≤ height → height < total →
          max 0 (min other.start (total - height)) = max 0 (min prev.start (total - height))) →
        other.follow selected total height = next := by
  intro next
  have hfits : next.Fits total height := fits_follow prev h0
  refine ⟨⟨hfits.start_nonneg, hfits.start_le_stop, hfits.stop_le, hfits.size_eq⟩, ?_, ?_⟩
  · rintro α rows rfl
    obtain ⟨above, below, hrows, habove, hsize⟩ := hfits.exists_slice_append
    exact ⟨above, below, hrows, habove, hsize.trans hfits.size_eq⟩
  · intro other hstart
    exact follow_congr hstart

/-- A window left over from a longer list, and one that ends before it starts at that, while the
selection is above the first of five rows. -/
theorem follow_bounds_of_stale :
    0 ≤ (5 : Int) ∧
      (let next := (mk 97 40).follow (-3) 5 2
      (0 ≤ next.start ∧ next.start ≤ next.stop ∧ next.stop ≤ 5 ∧ next.stop - next.start = 2) ∧
        (∃ above below, [1, 2, 3, 4, 5] = above ++ next.slice [1, 2, 3, 4, 5] ++ below ∧
          (above.length : Int) = next.start ∧
          ((next.slice [1, 2, 3, 4, 5]).length : Int) = 2) ∧
        (mk 3 5).follow (-3) 5 2 = next) := by
  obtain ⟨hbounds, hrows, hstart⟩ := follow_bounds (mk 97 40) (-3) 5 2 (by decide)
  exact ⟨by decide, hbounds, hrows [1, 2, 3, 4, 5] rfl,
    hstart (mk 3 5) fun _ _ => by decide⟩

end DockConsole.Window
