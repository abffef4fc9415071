import DockConsole.Proofs.Window.Bounds
import Mathlib.Data.List.Forall2

/-!
Whether the selected row stays in sight.

A window that has the selection in sight is moved along when the selection moves by one row, and up
when it stays in the uppermost row. A window of two rows or more has room for that. In a window of
one row every selection is in the uppermost row, so there a drawing without a move loses it.
-/

namespace DockConsole.Window

variable {w : Window} {total height s s' : Int}

/-- The row is in the window. -/
def Sees (w : Window) (row : Int) : Prop := w.start ≤ row ∧ row < w.stop

instance (w : Window) (row : Int) : Decidable (w.Sees row) := inferInstanceAs (Decidable (_ ∧ _))

/-- The selection moves by one row at most, in either direction. -/
def Near (s s' : Int) : Prop := s - 1 ≤ s' ∧ s' ≤ s + 1

/-- The selection moves, or it is on the first row or the last one. -/
def Stirs (total s s' : Int) : Prop := s' ≠ s ∨ s' = 0 ∨ s' = total - 1

lemma Fits.stop_eq (hw : w.Fits total height) (h0 : 0 ≤ height) (h : height < total) :
    w.stop = w.start + height := by
  have := hw.size_eq
  omega

lemma Fits.within_eq (hw : w.Fits total height) (h0 : 0 ≤ height) (h : height < total) :
    within w.start total height = w.start := by
  have := hw.start_nonneg
  have := hw.stop_le
  have := hw.stop_eq h0 h
  unfold within
  omega

lemma sees_iff_of_eq {n : Int} (hw : w = ⟨n, n + height⟩) {row : Int} :
    w.Sees row ↔ n ≤ row ∧ row < n + height := by
  rw [hw]
  rfl

/-- A selection that moves by one row at most is lost only from a window of one row, and only if it
does not move and has rows on both sides. -/
lemma sees_follow_iff (hw : w.Fits total height) (hheight : 1 ≤ height) (h : height < total)
    (hseen : w.Sees s) (h0 : 0 ≤ s') (hlast : s' < total) (hnear : Near s s') :
    (w.follow s' total height).Sees s' ↔ 2 ≤ height ∨ Stirs total s s' := by
  have hwithin := hw.within_eq (by omega) h
  have hstop := hw.stop_eq (by omega) h
  unfold Stirs
  obtain ⟨hseen0, hseen1⟩ := hseen
  obtain ⟨hup, hdown⟩ := hnear
  rcases Int.lt_or_eq_of_le h0 with hpos | rfl
  · rcases Int.lt_or_eq_of_le (show s' ≤ total - 1 by omega) with hlt | rfl
    · rcases Int.lt_or_le w.start s' with hin | habove
      · rcases Int.lt_or_eq_of_le (show s' ≤ w.start + height by omega) with hin' | hbelow
        · rw [sees_iff_of_eq (follow_inside w hwithin h hpos hlt hin hin')]
          omega
        · rw [sees_iff_of_eq (follow_below w hwithin h hpos hlt (by omega) hbelow)]
          omega
      · -- drawn up by one row, the window must have another one to keep a selection that stays
        rw [sees_iff_of_eq (follow_above w hwithin h hpos hlt (by omega) habove)]
        omega
    · rw [sees_iff_of_eq (follow_last w (by omega) h hpos (Int.le_refl _))]
      omega
  · rw [sees_iff_of_eq (follow_first w (by omega) h (Int.le_refl 0))]
    omega

/-! ### One selection after the other -/

/-- The windows drawn for one selection after the other. -/
def along (w : Window) (total height : Int) : List Int → List Window
  | [] => []
  | s :: walk =>
    let next := w.follow s total height
    next :: next.along total height walk

/-- **Walks**: along a walk of the selection by one row at a time, every drawing has the selection
in sight, exactly if the window has two rows or the selection never stays where it is, but at the
ends of the list. -/
theorem sees_along_iff {walk : List Int} (hw : w.Fits total height) (hheight : 1 ≤ height)
    (h : height < total) (hseen : w.Sees s) (hwalk : (s :: walk).IsChain Near)
    (hrows : ∀ s' ∈ walk, 0 ≤ s' ∧ s' < total) :
    List.Forall₂ Sees (w.along total height walk) walk ↔
      2 ≤ height ∨ (s :: walk).IsChain (Stirs total) := by
  induction walk generalizing w s with
  | nil => exact iff_of_true .nil (.inr (.singleton s))
  | cons s' walk ih =>
    obtain ⟨hnear, hwalk⟩ := List.isChain_cons_cons.mp hwalk
    obtain ⟨h0, hlast⟩ := hrows s' List.mem_cons_self
    have hstep := sees_follow_iff hw hheight h hseen h0 hlast hnear
    have hfits : (w.follow s' total height).Fits total height := fits_follow w (by omega)
    have hrest : ∀ r ∈ walk, 0 ≤ r ∧ r < total := fun r hr => hrows r (List.mem_cons_of_mem _ hr)
    rw [along, List.forall₂_cons, List.isChain_cons_cons]
    constructor
    · rintro ⟨hsees, hlater⟩
      have hwalked := (ih hfits hsees hwalk hrest).mp hlater
      rcases hstep.mp hsees with htwo | hstirs
      · exact .inl htwo
      · exact hwalked.imp_right fun hchain => ⟨hstirs, hchain⟩
    · intro hkept
      have hsees := hstep.mpr (hkept.imp_right And.left)
      exact ⟨hsees, (ih hfits hsees hwalk hrest).mpr (hkept.imp_right And.right)⟩

/-- **Small steps**: a drawing keeps a selection in sight that was in sight and has moved by one row
at most, exactly if the window has two rows, or the selection has moved, or it is on the first row
or the last one. Where it is lost, the row above it is shown in its place. -/
theorem sees_after_step_iff (total height start s s' : Int) (hheight : 1 ≤ height)
    (h : height < total) (h0 : 0 ≤ start) (h1 : start ≤ total - height)
    (hseen : Sees ⟨start, start + height⟩ s) (hs0 : 0 ≤ s') (hs1 : s' < total)
    (hstep : s - 1 ≤ s' ∧ s' ≤ s + 1) :
    let next := follow ⟨start, start + height⟩ s' total height
    (next.Sees s' ↔ 2 ≤ height ∨ s' ≠ s ∨ s' = 0 ∨ s' = total - 1) ∧
      (¬ next.Sees s' → height = 1 ∧ s' = s ∧ next = ⟨s - 1, s⟩) := by
  intro next
  have hfits : Fits ⟨start, start + height⟩ total height := by
    constructor <;> simp only <;> omega
  have hiff := sees_follow_iff hfits hheight h hseen hs0 hs1 hstep
  refine ⟨hiff, fun hlost => ?_⟩
  rw [hiff, Stirs] at hlost
  obtain ⟨hseen0, hseen1⟩ : start ≤ s ∧ s < start + height := hseen
  obtain ⟨rfl, rfl, rfl⟩ : height = 1 ∧ s = s' ∧ start = s' := by omega
  have hup : next = ⟨start - 1, start - 1 + 1⟩ :=
    follow_above _ (hfits.within_eq (by omega) h) h (by omega) (by omega) (by omega)
      (Int.le_refl start)
  refine ⟨rfl, rfl, ?_⟩
  rw [hup, Int.sub_add_cancel]

/-- Two rows, the upper one selected, drawn once more: the window goes up and has it in sight. -/
theorem sees_after_pause :
    (1 ≤ (2 : Int) ∧ (2 : Int) < 9 ∧ 0 ≤ (5 : Int) ∧ (5 : Int) ≤ 9 - 2 ∧ Sees ⟨5, 5 + 2⟩ 5 ∧
        (0 : Int) ≤ 5 ∧ (5 : Int) < 9 ∧ (5 : Int) - 1 ≤ 5 ∧ (5 : Int) ≤ 5 + 1) ∧
      follow ⟨5, 5 + 2⟩ 5 9 2 = ⟨4, 6⟩ ∧ (follow ⟨5, 5 + 2⟩ 5 9 2).Sees 5 := by
  obtain ⟨hiff, -⟩ := sees_after_step_iff 9 2 5 5 5 (by decide) (by decide) (by decide) (by decide)
    (by decide) (by decide) (by decide) (by decide)
  exact ⟨by decide, by decide, hiff.mpr (.inl (by decide))⟩

/-- The second of three rows, alone in the window and drawn once more: the first one is shown. -/
theorem not_always_sees_after_step :
    ¬ ∀ total height start s s' : Int, 1 ≤ height → height < total → 0 ≤ start →
      start ≤ total - height → Sees ⟨start, start + height⟩ s → 0 ≤ s' → s' < total →
      s - 1 ≤ s' ∧ s' ≤ s + 1 → (follow ⟨start, start + height⟩ s' total height).Sees s' := by
  intro h
  exact absurd (h 3 1 1 1 1 (by decide) (by decide) (by decide) (by decide) (by decide) (by decide)
    (by decide) (by decide)) (by decide)

end DockConsole.Window
