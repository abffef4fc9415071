import DockConsole.Proofs.Window.Sight

/-!
Windows of later selections.

Of two selections that follow the same window, the later one shows no row above those of the earlier
one. The rules at both ends of the list give the least and the greatest start that there are, and
between the ends a later selection falls under a rule that scrolls further down.
-/

namespace DockConsole.Window

variable {start s s' total height : Int}

/-- From within the list, scrolling stays within the list. -/
lemma scroll_mem (h0 : 0 ≤ start) (h1 : start ≤ total - height) :
    0 ≤ scroll start s total height ∧ scroll start s total height ≤ total - height := by
  unfold scroll
  split_ifs <;> omega

/-- If there are more rows than room, the window goes where it is scrolled to: it need not be brought
back into the list. -/
lemma follow_eq_scroll (w : Window) (hheight : 0 ≤ height) (h : height < total) :
    w.follow s total height =
      ⟨scroll (within w.start total height) s total height,
        scroll (within w.start total height) s total height + height⟩ := by
  obtain ⟨h0, h1⟩ := within_mem w.start h
  obtain ⟨hn0, hn1⟩ := scroll_mem (s := s) h0 h1
  exact follow_of_lt w hheight h rfl rfl hn0 hn1

/-- Between the first row and the last one the selection is compared with the window alone. -/
lemma scroll_between (hpos : 0 < s) (hlast : s < total - 1) :
    scroll start s total height =
      if s = start + height then start + 1
      else if s ≤ start then start - 1
      else if start + height < s then s - height
      else start := by
  rw [scroll, if_neg (by omega), if_neg (by omega)]

/-- A later selection scrolls at least as far down. -/
lemma scroll_mono (hheight : 0 ≤ height) (h0 : 0 ≤ start) (h1 : start ≤ total - height)
    (h : s ≤ s') : scroll start s total height ≤ scroll start s' total height := by
  rcases Int.lt_or_le 0 s with hpos | hfirst
  · rcases Int.lt_or_le s' (total - 1) with hlast | hend
    · rw [scroll_between hpos (by omega), scroll_between (by omega) hlast]
      split_ifs <;> omega
    · -- on the last row, as far down as there is
      rw [show scroll start s' total height = total - height by
        rw [scroll, if_neg (by omega), if_pos hend]]
      exact (scroll_mem h0 h1).2
  · -- on the first row, as far up as there is
    rw [scroll, if_pos hfirst]
    exact (scroll_mem h0 h1).1

/-- **Monotone scrolling**: after one and the same window, a later selection never has a window that
starts or ends further up. So whatever comes into sight with it comes from below. -/
theorem follow_mono (prev : Window) (total height : Int) {s s' : Int} (h : s ≤ s') :
    let shown := prev.follow s total height
    let shown' := prev.follow s' total height
    shown.start ≤ shown'.start ∧ shown.stop ≤ shown'.stop ∧
      ∀ row, shown'.Sees row → ¬ shown.Sees row → shown.stop ≤ row := by
  intro shown shown'
  have hends : shown.start ≤ shown'.start ∧ shown.stop ≤ shown'.stop := by
    rcases Int.lt_or_le height 0 with hneg | hheight
    · simp [shown, shown', follow, hneg]
    · rcases Int.lt_or_le height total with hlt | hfits
      · obtain ⟨h0, h1⟩ := within_mem prev.start hlt
        have hscroll := scroll_mono hheight h0 h1 h
        simp only [shown, shown', follow_eq_scroll prev hheight hlt]
        exact ⟨hscroll, Int.add_le_add_right hscroll height⟩
      · simp [shown, shown', follow_of_fits prev hheight hfits]
  refine ⟨hends.1, hends.2, fun row hrow hnew => ?_⟩
  have habove : shown.start ≤ row := Int.le_trans hends.1 hrow.1
  exact Int.not_lt.mp fun hlt => hnew ⟨habove, hlt⟩

/-- Right below the window and two rows further: the window goes down by one row, and by two. -/
theorem follow_mono_at_end :
    (7 : Int) ≤ 9 ∧ follow ⟨4, 7⟩ 7 20 3 = ⟨5, 8⟩ ∧ follow ⟨4, 7⟩ 9 20 3 = ⟨6, 9⟩ ∧
      (follow ⟨4, 7⟩ 7 20 3).start ≤ (follow ⟨4, 7⟩ 9 20 3).start ∧
      (follow ⟨4, 7⟩ 7 20 3).stop ≤ (follow ⟨4, 7⟩ 9 20 3).stop ∧
      ∀ row, (follow ⟨4, 7⟩ 9 20 3).Sees row → ¬ (follow ⟨4, 7⟩ 7 20 3).Sees row →
        (follow ⟨4, 7⟩ 7 20 3).stop ≤ row :=
  ⟨by decide, by decide, by decide, follow_mono ⟨4, 7⟩ 20 3 (by decide)⟩

end DockConsole.Window
