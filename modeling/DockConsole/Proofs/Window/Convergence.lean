import DockConsole.Window
import Mathlib.Logic.Function.Iterate
import Mathlib.Tactic.Common

/-!
A window that is drawn again and again with the same selection comes to rest on it.

One drawing depends on the window before it only through its start, clamped into the list. A
selection below the window is in sight after two drawings; one above it is approached by one row
a drawing, and the window stops one row above it.
-/

namespace DockConsole.Window

variable {selected total height : Int}

/-! ### One drawing -/

lemma follow_of_fits (w : Window) (h0 : 0 ≤ height) (h : total ≤ height) :
    w.follow selected total height = ⟨0, total⟩ := by
  rw [follow, if_neg (by omega), if_pos h]

lemma follow_of_lt (w : Window) (h0 : 0 ≤ height) (h : height < total) {s n : Int}
    (hs : within w.start total height = s) (hn : scroll s selected total height = n)
    (hn0 : 0 ≤ n) (hn1 : n ≤ total - height) :
    w.follow selected total height = ⟨n, n + height⟩ := by
  have hw : within n total height = n := by unfold within; omega
  rw [follow, if_neg (by omega), if_neg (by omega), hs, hn, hw]

lemma within_mem (start : Int) (h : height < total) :
    0 ≤ within start total height ∧ within start total height ≤ total - height := by
  unfold within; omega

lemma within_start {s stop : Int} (h0 : 0 ≤ s) (h1 : s ≤ total - height) :
    within (mk s stop).start total height = s := by
  simp only [within]; omega

/-- The first row pulls the window to the start. -/
lemma follow_first (w : Window) (h0 : 0 ≤ height) (h : height < total) (hsel : selected ≤ 0) :
    w.follow selected total height = ⟨0, 0 + height⟩ :=
  follow_of_lt w h0 h rfl (by rw [scroll, if_pos hsel]) (by omega) (by omega)

/-- The last row pulls the window to the end. -/
lemma follow_last (w : Window) (h0 : 0 ≤ height) (h : height < total) (hpos : 0 < selected)
    (hsel : total - 1 ≤ selected) :
    w.follow selected total height = ⟨total - height, total - height + height⟩ :=
  follow_of_lt w h0 h rfl (by rw [scroll, if_neg (by omega), if_pos hsel]) (by omega) (by omega)

section Between

variable {s : Int} (w : Window) (hs : within w.start total height = s) (h : height < total)
  (hpos : 0 < selected) (hlast : selected < total - 1)

include hs h hpos hlast

/-- A selection in sight, and not in the uppermost row, leaves the window where it is. -/
lemma follow_inside (h1 : s < selected) (h2 : selected < s + height) :
    w.follow selected total height = ⟨s, s + height⟩ := by
  have := within_mem w.start h
  refine follow_of_lt w (by omega) h hs ?_ (by omega) (by omega)
  rw [scroll, if_neg (by omega), if_neg (by omega), if_neg (by omega), if_neg (by omega),
    if_neg (by omega)]

/-- A selection right below the window draws it down by one row. -/
lemma follow_below (h0 : 0 < height) (h1 : selected = s + height) :
    w.follow selected total height = ⟨s + 1, s + 1 + height⟩ := by
  have := within_mem w.start h
  refine follow_of_lt w (by omega) h hs ?_ (by omega) (by omega)
  rw [scroll, if_neg (by omega), if_neg (by omega), if_pos h1]

/-- A selection further below becomes the row right below the window. -/
lemma follow_far_below (h0 : 0 < height) (h1 : s + height < selected) :
    w.follow selected total height = ⟨selected - height, selected - height + height⟩ := by
  have := within_mem w.start h
  refine follow_of_lt w (by omega) h hs ?_ (by omega) (by omega)
  rw [scroll, if_neg (by omega), if_neg (by omega), if_neg (by omega), if_neg (by omega),
    if_pos h1]

/-- A selection in the uppermost row or above it draws the window up by one row. -/
lemma follow_above (h0 : 0 < height) (h1 : selected ≤ s) :
    w.follow selected total height = ⟨s - 1, s - 1 + height⟩ := by
  have := within_mem w.start h
  refine follow_of_lt w (by omega) h hs ?_ (by omega) (by omega)
  rw [scroll, if_neg (by omega), if_neg (by omega), if_neg (by omega), if_pos h1]

end Between

/-! ### Many drawings -/

/-- The window shows the selected row, and another drawing leaves it where it is. -/
structure Rests (w : Window) (selected total height : Int) : Prop where
  start_le : w.start ≤ selected
  lt_stop : selected < w.stop
  follow_eq : w.follow selected total height = w

/-- The window after `k` drawings. -/
def drawn (prev : Window) (selected total height : Int) (k : ℕ) : Window :=
  (fun w => w.follow selected total height)^[k] prev

lemma drawn_succ (prev : Window) (k : ℕ) :
    prev.drawn selected total height (k + 1) =
      (prev.drawn selected total height k).follow selected total height :=
  Function.iterate_succ_apply' _ k prev

/-- A window at rest is the window from then on. -/
lemma Rests.drawn_eq {prev : Window} {n k : ℕ}
    (h : Rests (prev.drawn selected total height n) selected total height) (hk : n ≤ k) :
    prev.drawn selected total height k = prev.drawn selected total height n := by
  obtain ⟨m, rfl⟩ := Nat.exists_eq_add_of_le' hk
  unfold drawn at h ⊢
  rw [Function.iterate_add_apply]
  exact Function.iterate_fixed h.follow_eq m

lemma Rests.mono {prev : Window} {n k : ℕ}
    (h : Rests (prev.drawn selected total height n) selected total height) (hk : n ≤ k) :
    Rests (prev.drawn selected total height k) selected total height := by
  rw [h.drawn_eq hk]; exact h

lemma Rests.follow {w : Window} (h : Rests w selected total height) :
    Rests (w.follow selected total height) selected total height := by
  rw [h.follow_eq]; exact h

lemma rests_of_fits (w : Window) (h0 : 0 ≤ selected) (hsel : selected < total)
    (h : total ≤ height) : Rests (w.follow selected total height) selected total height := by
  rw [follow_of_fits w (by omega) h]
  exact ⟨h0, hsel, follow_of_fits _ (by omega) h⟩

lemma rests_first (w : Window) (hheight : 0 < height) (h : height < total) :
    Rests (w.follow 0 total height) 0 total height := by
  have hf (w : Window) : w.follow 0 total height = ⟨0, 0 + height⟩ :=
    follow_first w (by omega) h (Int.le_refl 0)
  rw [hf w]
  exact ⟨by simp, by simpa using hheight, hf _⟩

lemma rests_last (w : Window) (hheight : 0 < height) (h : height < total) :
    Rests (w.follow (total - 1) total height) (total - 1) total height := by
  have hf (w : Window) :
      w.follow (total - 1) total height = ⟨total - height, total - height + height⟩ :=
    follow_last w (by omega) h (by omega) (Int.le_refl _)
  rw [hf w]
  refine ⟨?_, ?_, hf _⟩
  · show total - height ≤ total - 1
    omega
  · show total - 1 < total - height + height
    omega

lemma rests_inside {s : Int} (h : height < total) (hpos : 0 < selected)
    (hlast : selected < total - 1) (hs0 : 0 ≤ s) (hs1 : s ≤ total - height) (h1 : s < selected)
    (h2 : selected < s + height) : Rests ⟨s, s + height⟩ selected total height :=
  ⟨by simp; omega, by simpa using h2,
    follow_inside ⟨s, s + height⟩ (within_start hs0 hs1) h hpos hlast h1 h2⟩

/-- A selection that is not above the window is at rest after two drawings. -/
lemma rests_of_not_above (w : Window) (hheight : 2 ≤ height) (h : height < total)
    (hpos : 0 < selected) (hlast : selected < total - 1)
    (habove : within w.start total height ≤ selected) :
    Rests ((w.follow selected total height).follow selected total height)
      selected total height := by
  obtain ⟨s, hs⟩ : ∃ s, within w.start total height = s := ⟨_, rfl⟩
  obtain ⟨hs0, hs1⟩ := hs ▸ within_mem w.start h
  rw [hs] at habove
  rcases Int.lt_trichotomy selected (s + height) with hlt | heq | hgt
  · rcases Int.lt_or_eq_of_le habove with hin | rfl
    · rw [follow_inside w hs h hpos hlast hin hlt]
      exact (rests_inside h hpos hlast hs0 hs1 hin hlt).follow
    · -- in the uppermost row: one row up, then at rest
      rw [follow_above w hs h hpos hlast (by omega) (Int.le_refl _)]
      exact (rests_inside h hpos hlast (by omega) (by omega) (by omega) (by omega)).follow
  · rw [follow_below w hs h hpos hlast (by omega) heq]
    exact (rests_inside h hpos hlast (by omega) (by omega) (by omega) (by omega)).follow
  · rw [follow_far_below w hs h hpos hlast (by omega) hgt,
      follow_below ⟨selected - height, selected - height + height⟩
        (within_start (by omega) (by omega)) h hpos hlast (by omega) (by omega)]
    exact rests_inside h hpos hlast (by omega) (by omega) (by omega) (by omega)

/-- A window that starts below the selection comes up by one row a drawing until it starts one row
above it. -/
lemma drawn_above {prev : Window} {s : Int} (hs : within prev.start total height = s)
    (hheight : 2 ≤ height) (h : height < total) (hpos : 0 < selected) (habove : selected ≤ s)
    (k : ℕ) (hk : (k : Int) < s - selected + 1) :
    prev.drawn selected total height (k + 1) = ⟨s - (k + 1), s - (k + 1) + height⟩ := by
  obtain ⟨hs0, hs1⟩ := hs ▸ within_mem prev.start h
  induction k with
  | zero => simpa [drawn] using follow_above prev hs h hpos (by omega) (by omega) habove
  | succ k ih =>
    rw [drawn_succ, ih (by omega), follow_above ⟨s - (k + 1), s - (k + 1) + height⟩
      (within_start (by omega) (by omega)) h hpos (by omega) (by omega) (by omega)]
    simp only [mk.injEq]
    omega

/-- From above the selection, the window is at rest as soon as it starts one row above it. -/
lemma rests_above {prev : Window} {s : Int} (hs : within prev.start total height = s)
    (hheight : 2 ≤ height) (h : height < total) (hpos : 0 < selected) (habove : selected ≤ s) :
    Rests (prev.drawn selected total height ((s - selected).toNat + 1)) selected total height := by
  obtain ⟨hs0, hs1⟩ := hs ▸ within_mem prev.start h
  rw [drawn_above hs hheight h hpos habove _ (by omega)]
  exact rests_inside h hpos (by omega) (by omega) (by omega) (by omega) (by omega)

/-- The start of a window, clamped into the list. -/
lemma within_of_lt (start : Int) (h : height < total) :
    max 0 (min start (max 0 (total - height))) = within start total height := by
  unfold within; omega

/-- The window is at rest after `n` drawings, if `n` is at least two and more than the number of
rows that the selection is above its clamped start. -/
lemma rests_drawn (prev : Window) (hheight : 2 ≤ height) (h0 : 0 ≤ selected)
    (hsel : selected < total) {n : ℕ}
    (hn : max 2 (max 0 (min prev.start (max 0 (total - height))) - selected + 1) ≤ n) :
    Rests (prev.drawn selected total height n) selected total height := by
  rcases Int.lt_or_le height total with h | h
  · rw [within_of_lt prev.start h] at hn
    rcases Int.lt_or_eq_of_le h0 with hpos | rfl
    · rcases Int.lt_or_eq_of_le (show selected ≤ total - 1 by omega) with hlast | rfl
      · rcases Int.lt_or_le selected (within prev.start total height) with habove | hin
        · exact (rests_above rfl hheight h hpos (by omega)).mono (by omega)
        · exact Rests.mono (n := 2) (rests_of_not_above prev hheight h hpos hlast hin) (by omega)
      · exact Rests.mono (n := 1) (rests_last prev (by omega) h) (by omega)
    · exact Rests.mono (n := 1) (rests_first prev (by omega) h) (by omega)
  · exact Rests.mono (n := 1) (rests_of_fits prev h0 hsel h) (by omega)

/-- A window that comes up to the selection has it in sight one drawing before it rests. -/
lemma mem_drawn (prev : Window) (hheight : 2 ≤ height) (h0 : 0 ≤ selected)
    (hsel : selected < total) {n : ℕ}
    (hn : max 2 (max 0 (min prev.start (max 0 (total - height))) - selected) ≤ n) :
    (prev.drawn selected total height n).start ≤ selected ∧
      selected < (prev.drawn selected total height n).stop := by
  by_cases hrest : max 2 (max 0 (min prev.start (max 0 (total - height))) - selected + 1) ≤ n
  · have hr := rests_drawn prev hheight h0 hsel hrest
    exact ⟨hr.start_le, hr.lt_stop⟩
  · have h : height < total := by omega
    rw [within_of_lt prev.start h] at hn hrest
    obtain ⟨k, rfl⟩ : ∃ k, n = k + 1 := ⟨n - 1, by omega⟩
    rcases Int.lt_or_eq_of_le h0 with hpos | rfl
    · rw [drawn_above rfl hheight h hpos (by omega) k (by omega)]
      exact ⟨by simp only; omega, by simp only; omega⟩
    · have hr := Rests.mono (n := 1) (k := k + 1) (rests_first prev (by omega) h) (by omega)
      exact ⟨hr.start_le, hr.lt_stop⟩

/-- **Convergence**: drawn again and again with the same selection, the window comes to rest on it,
after two drawings or as many as it has rows to come up. -/
theorem drawn_converges (prev : Window) (hheight : 2 ≤ height) (h0 : 0 ≤ selected)
    (hsel : selected < total) :
    let start := max 0 (min prev.start (max 0 (total - height)))
    let shown := fun k : ℕ => (fun w : Window => w.follow selected total height)^[k] prev
    (∃! w : Window, (w.start ≤ selected ∧ selected < w.stop) ∧
      w.follow selected total height = w ∧
      ∀ k : ℕ, max 2 (start - selected + 1) ≤ k → shown k = w) ∧
    ∀ k : ℕ, max 2 (start - selected) ≤ k →
      (shown k).start ≤ selected ∧ selected < (shown k).stop := by
  intro start shown
  refine ⟨?_, fun k hk => mem_drawn prev hheight h0 hsel hk⟩
  have hn : max 2 (start - selected + 1) ≤ ((max 2 (start - selected + 1)).toNat : ℕ) := by omega
  have hr := rests_drawn prev hheight h0 hsel hn
  refine ⟨shown (max 2 (start - selected + 1)).toNat, ⟨⟨hr.start_le, hr.lt_stop⟩, hr.follow_eq,
    fun k hk => hr.drawn_eq (by omega)⟩, ?_⟩
  rintro w ⟨-, -, hw⟩
  exact (hw _ hn).symm

/-- From row 50 up to row 46: at rest after five drawings, in sight after four. -/
theorem drawn_converges_upwards :
    (2 ≤ (10 : Int) ∧ 0 ≤ (46 : Int) ∧ (46 : Int) < 100) ∧
      ((∃! w : Window, (w.start ≤ 46 ∧ 46 < w.stop) ∧ w.follow 46 100 10 = w ∧
        ∀ k : ℕ, max 2 (50 - 46 + 1 : Int) ≤ k →
          (fun w : Window => w.follow 46 100 10)^[k] ⟨50, 60⟩ = w) ∧
      ∀ k : ℕ, max 2 (50 - 46 : Int) ≤ k →
        ((fun w : Window => w.follow 46 100 10)^[k] ⟨50, 60⟩).start ≤ 46 ∧
          46 < ((fun w : Window => w.follow 46 100 10)^[k] ⟨50, 60⟩).stop) :=
  ⟨by decide, drawn_converges ⟨50, 60⟩ (by decide) (by decide) (by decide)⟩

end DockConsole.Window
