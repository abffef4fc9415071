import DockConsole.Header
import Mathlib.Algebra.Order.BigOperators.Group.List
import Mathlib.Tactic.Linarith
import Mathlib.Tactic.Positivity
import Mathlib.Tactic.Ring

/-!
How the columns of a header share its width.

Columns stand side by side, with a gap between any two, and are cut where the header ends. If the
fixed widths and the gaps leave room, nothing is cut: the columns without a width of their own share
that room evenly, and what is left over at the right is less than one column each.
-/

namespace DockConsole.Header

/-! ### Side by side -/

section Place

variable {spacing right share x : Int} {cs : List Column}

lemma length_place : (place spacing right share x cs).length = cs.length := by
  induction cs generalizing x with
  | nil => rfl
  | cons c cs ih => simp [place, ih]

lemma isChain_place :
    (place spacing right share x cs).IsChain fun s t => t.x = s.x + s.width + spacing := by
  induction cs generalizing x with
  | nil => exact .nil
  | cons c cs ih =>
    cases cs with
    | nil => exact .singleton _
    | cons d ds => exact .cons_cons rfl ih

/-- Side by side from `x` on, columns never go back, and those with any width end by `right`. -/
lemma mem_place (hspacing : 0 ≤ spacing) {s : Span} (hs : s ∈ place spacing right share x cs) :
    x ≤ s.x ∧ 0 ≤ s.width ∧ s.x + s.width ≤ max s.x right := by
  induction cs generalizing x with
  | nil => cases hs
  | cons c cs ih =>
    rcases List.mem_cons.mp hs with rfl | hs
    · simp only
      omega
    · have := ih hs
      omega

/-- A column ends before any later one starts. -/
lemma pairwise_place (hspacing : 0 ≤ spacing) :
    (place spacing right share x cs).Pairwise fun s t => s.x + s.width ≤ t.x := by
  induction cs generalizing x with
  | nil => exact .nil
  | cons c cs ih =>
    refine .cons (fun t ht => ?_) ih
    have := mem_place hspacing ht
    simp only
    omega

/-- No column starts before an earlier one. -/
lemma place_mono (hspacing : 0 ≤ spacing) {i j : ℕ} (hij : i ≤ j) {s t : Span}
    (hs : (place spacing right share x cs)[i]? = some s)
    (ht : (place spacing right share x cs)[j]? = some t) : s.x ≤ t.x := by
  have hwidth := (mem_place hspacing (List.mem_of_getElem? hs)).2.1
  obtain ⟨hi, rfl⟩ := List.getElem?_eq_some_iff.mp hs
  obtain ⟨hj, rfl⟩ := List.getElem?_eq_some_iff.mp ht
  rcases hij.eq_or_lt with rfl | hlt
  · exact le_rfl
  · have hbefore := List.pairwise_iff_getElem.mp (pairwise_place hspacing) i j hi hj hlt
    omega

/-- A column is no wider than it asks to be, and narrower only at the right end. -/
lemma width_place {i : ℕ} {c : Column} {s : Span} (hc : cs[i]? = some c)
    (hs : (place spacing right share x cs)[i]? = some s) :
    s.width ≤ max 0 (c.fixedWidth.getD share) ∧
      (s.width < c.fixedWidth.getD share → right ≤ s.x + s.width) := by
  induction cs generalizing i x with
  | nil => cases hc
  | cons d cs ih =>
    cases i with
    | zero =>
      simp only [place, List.getElem?_cons_zero, Option.some.injEq] at hc hs
      subst hc hs
      simp only
      omega
    | succ i => exact ih hc hs

end Place

lemma mem_layout {h : Header} (hspacing : 0 ≤ h.spacing) {texts : List Text} {e : Span × Text}
    (he : e ∈ h.layout.zip texts) :
    h.x ≤ e.1.x ∧ e.1.x + e.1.width ≤ max e.1.x (h.x + h.width) := by
  obtain ⟨hleft, -, hright⟩ := mem_place hspacing (List.of_mem_zip (a := e.1) (b := e.2) he).1
  exact ⟨hleft, hright⟩

/-- **Columns keep within their place**: they start at `x`, each starts behind the one before it and
the gap, and none with any width goes past the right end; a column that would start there has no
width, nor has any after it. It takes the right end to make a column narrower than it asks to be. -/
theorem layout_side_by_side (columns : List Column) (spacing x width : Int)
    (hspacing : 0 ≤ spacing) :
    let h := Header.align { columns, spacing } x width
    let right := x + max 0 width
    h.layout.length = columns.length ∧
      (∀ s, h.layout.head? = some s → s.x = x) ∧
      (∀ (i : ℕ) (s t : Span), h.layout[i]? = some s → h.layout[i + 1]? = some t →
        t.x = s.x + s.width + spacing) ∧
      (∀ s ∈ h.layout, 0 ≤ s.width ∧ (0 < s.width → s.x + s.width ≤ right)) ∧
      (∀ (i j : ℕ) (s t : Span), h.layout[i]? = some s → h.layout[j]? = some t → i ≤ j →
        right ≤ s.x → t.width = 0) ∧
      ∀ (i : ℕ) (c : Column) (s : Span), columns[i]? = some c → h.layout[i]? = some s →
        s.width ≤ max 0 (c.fixedWidth.getD h.share) ∧
          (s.width < c.fixedWidth.getD h.share → right ≤ s.x + s.width) := by
  intro h right
  have hright : h.x + h.width = right := by
    show x + (width.toNat : Int) = x + max 0 width
    omega
  have hlayout : h.layout = place spacing right h.share x columns := by
    rw [← hright]
    rfl
  rw [hlayout]
  refine ⟨length_place, ?_, ?_, ?_, ?_, fun i c s hc hs => width_place hc hs⟩
  · intro s hs
    cases columns with
    | nil => cases hs
    | cons c cs => exact Option.some.inj hs ▸ rfl
  · intro i s t hs ht
    obtain ⟨hlt, rfl⟩ := List.getElem?_eq_some_iff.mp ht
    obtain ⟨-, rfl⟩ := List.getElem?_eq_some_iff.mp hs
    exact List.isChain_iff_getElem.mp isChain_place i hlt
  · intro s hs
    have := mem_place hspacing hs
    omega
  · intro i j s t hs ht hij hend
    have hmem := mem_place hspacing (List.mem_of_getElem? ht)
    have hmono := place_mono hspacing hij hs ht
    omega

/-- Cut columns, from left of the screen: of three that ask for 3, -2 and 9 columns in a header of 8
the last gets the 3 that are left, and one that shares nothing comes after it. -/
theorem layout_side_by_side_cut :
    let columns : List Column := [{ title := ['a'], fixedWidth := some 3 },
      { title := ['b'], fixedWidth := some (-2) }, { title := ['c'], fixedWidth := some 9 },
      { title := ['d'] }]
    let h := Header.align { columns, spacing := 1 } (-4) 8
    (0 : Int) ≤ 1 ∧ h.layout = [⟨-4, 3⟩, ⟨0, 0⟩, ⟨1, 3⟩, ⟨5, 0⟩] ∧
      (∀ s ∈ h.layout, 0 < s.width → s.x + s.width ≤ 4) ∧
      ∀ s t, h.layout[2]? = some s → h.layout[3]? = some t → t.x = s.x + s.width + 1 := by
  intro columns h
  obtain ⟨-, -, hnext, hinside, -⟩ := layout_side_by_side columns 1 (-4) 8 (by decide)
  exact ⟨by decide, by decide, fun s hs => (hinside s hs).2, hnext 2⟩

/-! ### Room for all -/

section Fits

variable {spacing right share x : Int} {cs : List Column}

/-- The last column ends where all widths and gaps are used up. -/
lemma getLast?_place {s : Span} (hs : (place spacing right share x cs).getLast? = some s) :
    s.x + s.width =
      x + ((place spacing right share x cs).map (·.width)).sum + spacing * (cs.length - 1) := by
  induction cs generalizing x with
  | nil => cases hs
  | cons c cs ih =>
    cases cs with
    | nil =>
      obtain rfl := Option.some.inj hs
      simp [place]
    | cons d ds =>
      have hlast := ih hs
      unfold place
      simp only [List.map_cons, List.sum_cons, List.length_cons] at hlast ⊢
      push_cast at hlast ⊢
      linarith

/-- What the columns ask for in all: the fixed widths, and a share for each of the others. -/
lemma sum_wanted (cs : List Column) (share : Int) :
    (cs.map (·.fixedWidth.getD share)).sum =
      (cs.filterMap (·.fixedWidth)).sum + share * cs.countP (·.fixedWidth.isNone) := by
  induction cs with
  | nil => simp
  | cons c cs ih =>
    rcases hc : c.fixedWidth with _ | w
    · simp [hc, ih]
      ring
    · simp [hc, ih]
      ring

/-- Where there is room for all that the columns ask for, none is cut. -/
lemma map_width_place (hspacing : 0 ≤ spacing) (hwanted : ∀ c ∈ cs, 0 ≤ c.fixedWidth.getD share)
    (hroom : x + (cs.map (·.fixedWidth.getD share)).sum + spacing * (cs.length - 1) ≤ right) :
    (place spacing right share x cs).map (·.width) = cs.map (·.fixedWidth.getD share) := by
  induction cs generalizing x with
  | nil => rfl
  | cons c cs ih =>
    have hc := hwanted c List.mem_cons_self
    have hcs : ∀ d ∈ cs, 0 ≤ d.fixedWidth.getD share := fun d hd =>
      hwanted d (List.mem_cons_of_mem c hd)
    simp only [List.map_cons, List.sum_cons, List.length_cons, Nat.cast_add, Nat.cast_one,
      add_sub_cancel_right] at hroom
    -- what comes after the column takes room too
    have hrest : 0 ≤ (cs.map (·.fixedWidth.getD share)).sum := by
      refine List.sum_nonneg fun w hw => ?_
      obtain ⟨d, hd, rfl⟩ := List.mem_map.mp hw
      exact hcs d hd
    have hgaps : 0 ≤ spacing * cs.length := by positivity
    have hwidth : max 0 (min (c.fixedWidth.getD share) (right - x)) = c.fixedWidth.getD share := by
      omega
    rw [place, List.map_cons, List.map_cons, hwidth, ih hcs]
    linarith

/-- No column ends behind the last one. -/
lemma le_getLast?_place (hspacing : 0 ≤ spacing) {s last : Span}
    (hs : s ∈ place spacing right share x cs)
    (hlast : (place spacing right share x cs).getLast? = some last) :
    s.x + s.width ≤ last.x + last.width := by
  obtain ⟨before, hbefore⟩ := List.getLast?_eq_some_iff.mp hlast
  have hpairs : (place spacing right share x cs).Pairwise fun s t => s.x + s.width ≤ t.x :=
    pairwise_place hspacing
  have hwidth := mem_place hspacing (List.mem_of_getLast? hlast)
  rw [hbefore] at hs hpairs
  rcases List.mem_append.mp hs with hs | hs
  · have := (List.pairwise_append.mp hpairs).2.2 s hs last (List.mem_singleton_self last)
    omega
  · rw [List.mem_singleton.mp hs]

end Fits

variable {h : Header}

lemma gaps_eq (hne : h.columns ≠ []) : h.gaps = h.spacing * (h.columns.length - 1 : Int) := by
  have hpos : 0 < h.columns.length := List.length_pos_iff.mpr hne
  unfold gaps
  push_cast [hpos]
  rfl

/-- What the fixed widths and the gaps leave of the width. -/
def free (h : Header) : Int := h.width - h.fixedTotal - h.gaps

/-- All that is asked for, the gaps included, is the width less what is not shared out. -/
lemma sum_wanted_add_gaps (h : Header) :
    (h.columns.map (·.fixedWidth.getD h.share)).sum + h.gaps =
      h.width - (h.free - h.share * h.flexibleCount) := by
  have hfixed : h.fixedTotal = (h.columns.filterMap (·.fixedWidth)).sum := rfl
  rw [sum_wanted, free, hfixed, flexibleCount]
  ring

/-- The fixed widths and the gaps leave something, or just fit. -/
structure Roomy (h : Header) : Prop where
  ne_nil : h.columns ≠ []
  fixed : ∀ c ∈ h.columns, ∀ w, c.fixedWidth = some w → 0 ≤ w
  spacing : 0 ≤ h.spacing
  room : 0 ≤ h.free

namespace Roomy

lemma share_eq (hr : h.Roomy) : h.share = h.free / h.flexibleCount := by
  have hfree : 0 ≤ h.width - h.fixedTotal - h.gaps := hr.room
  rw [share, max_eq_right hfree]
  rfl

lemma wanted_nonneg (hr : h.Roomy) : ∀ c ∈ h.columns, 0 ≤ c.fixedWidth.getD h.share := by
  intro c hc
  rcases hcw : c.fixedWidth with _ | w
  · rw [Option.getD_none, hr.share_eq]
    exact Int.ediv_nonneg hr.room (by omega)
  · exact hr.fixed c hc w hcw

lemma shared_le (hr : h.Roomy) : h.share * h.flexibleCount ≤ h.free := by
  rcases Nat.eq_zero_or_pos h.flexibleCount with hzero | hpos
  · simpa [hzero] using hr.room
  · rw [hr.share_eq]
    exact Int.ediv_mul_le h.free (by omega)

lemma free_lt (hr : h.Roomy) (hpos : 0 < h.flexibleCount) :
    h.free < h.share * h.flexibleCount + h.flexibleCount := by
  have hlt : h.free < (h.free / h.flexibleCount + 1) * h.flexibleCount :=
    Int.lt_ediv_add_one_mul_self h.free (by omega)
  rw [hr.share_eq]
  linarith

lemma map_width_layout (hr : h.Roomy) :
    h.layout.map (·.width) = h.columns.map (·.fixedWidth.getD h.share) := by
  have hsum := sum_wanted_add_gaps h
  have hshared := hr.shared_le
  rw [gaps_eq hr.ne_nil] at hsum
  exact map_width_place hr.spacing hr.wanted_nonneg (by omega)

lemma getLast?_layout (hr : h.Roomy) :
    ∃ last, h.layout.getLast? = some last ∧
      last.x + last.width = h.x + h.width - (h.free - h.share * h.flexibleCount) := by
  have hne : h.layout ≠ [] := by
    rw [← List.length_pos_iff, layout, length_place]
    exact List.length_pos_iff.mpr hr.ne_nil
  have hlast := List.getLast?_eq_some_getLast hne
  have hend := getLast?_place hlast
  have hsum := sum_wanted_add_gaps h
  have hwidths := hr.map_width_layout
  rw [layout] at hwidths
  rw [gaps_eq hr.ne_nil] at hsum
  rw [hwidths] at hend
  exact ⟨_, hlast, by omega⟩

end Roomy

/-- **A table that fits is laid out exactly**: if the width has room for the fixed widths and the
gaps, no column is cut. Each with a width of its own gets that, the others get one and the same even
share of what is free, and less than one column for each of those stays free at the right. -/
theorem layout_with_room (columns : List Column) (hne : columns ≠ [])
    (hfixed : ∀ c ∈ columns, ∀ w, c.fixedWidth = some w → 0 ≤ w) (spacing x width : Int)
    (hspacing : 0 ≤ spacing)
    (hroom : (columns.filterMap (·.fixedWidth)).sum + spacing * (columns.length - 1) ≤ width) :
    let h := Header.align { columns, spacing } x width
    let flexible := columns.countP (·.fixedWidth.isNone)
    let free := width - (columns.filterMap (·.fixedWidth)).sum - spacing * (columns.length - 1)
    h.layout.map (·.width) = columns.map (·.fixedWidth.getD (free / flexible)) ∧
      (∀ s ∈ h.layout, s.x + s.width ≤ x + width) ∧
      ∃ last, h.layout.getLast? = some last ∧ last.x + last.width ≤ x + width ∧
        (0 < flexible → x + width - (last.x + last.width) < flexible) := by
  intro h flexible free
  have hgaps : h.gaps = spacing * (columns.length - 1 : Int) := gaps_eq hne
  have hwidth : (h.width : Int) = width := by
    have hpos : 0 < columns.length := List.length_pos_iff.mpr hne
    have hgaps : 0 ≤ spacing * (columns.length - 1 : Int) := mul_nonneg hspacing (by omega)
    have hsum : 0 ≤ (columns.filterMap (·.fixedWidth)).sum := by
      refine List.sum_nonneg fun w hw => ?_
      obtain ⟨c, hc, hcw⟩ := List.mem_filterMap.mp hw
      exact hfixed c hc w hcw
    exact Int.toNat_of_nonneg (by omega)
  have hfree : h.free = free := by
    rw [Header.free, hwidth, hgaps]
    rfl
  have hr : h.Roomy := ⟨hne, hfixed, hspacing, by omega⟩
  obtain ⟨last, hlast, hend⟩ := hr.getLast?_layout
  have hshared := hr.shared_le
  have hinside : last.x + last.width ≤ x + width := by
    have hx : h.x = x := rfl
    omega
  refine ⟨?_, fun s hs => (le_getLast?_place hspacing hs hlast).trans hinside, last, hlast,
    hinside, fun hflexible => ?_⟩
  · rw [hr.map_width_layout, hr.share_eq, hfree]
    rfl
  · have hx : h.x = x := rfl
    have hless : h.free < h.share * h.flexibleCount + flexible := hr.free_lt hflexible
    omega

/-- With 25 columns free, two share 12 each and one stays free at the right. -/
theorem layout_with_room_for_two :
    let columns : List Column := [{ title := ['a'], fixedWidth := some 4 }, { title := ['b'] },
      { title := ['c'], fixedWidth := some 0 }, { title := ['d'] }]
    let h := Header.align { columns, spacing := 1 } 2 32
    (columns ≠ [] ∧ (∀ c ∈ columns, ∀ w, c.fixedWidth = some w → 0 ≤ w) ∧ (0 : Int) ≤ 1 ∧
        (columns.filterMap (·.fixedWidth)).sum + 1 * ((columns.length : Int) - 1) ≤ 32) ∧
      h.layout.map (·.width) = [4, 12, 0, 12] ∧
      ∃ last, h.layout.getLast? = some last ∧ 2 + 32 - (last.x + last.width) < 2 := by
  intro columns h
  have hne : columns ≠ [] := by decide
  have hfixed : ∀ c ∈ columns, ∀ w, c.fixedWidth = some w → 0 ≤ w := by simp [columns]
  obtain ⟨hwidths, -, last, hlast, -, hfree⟩ :=
    layout_with_room columns hne hfixed 1 2 32 (by decide) (by decide)
  exact ⟨⟨hne, hfixed, by decide, by decide⟩, hwidths.trans (by decide), last, hlast,
    hfree (by decide)⟩

end DockConsole.Header
