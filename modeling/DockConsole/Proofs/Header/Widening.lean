import DockConsole.Proofs.Header.Layout

/-!
How the columns change when a header gets wider.

A header too narrow for the fixed widths and the gaps has nothing to share out and is cut at the
right: with more room, the cut moves right. A header with room gives each column what it asks for,
and the shares grow with the width. So no column gets narrower, and none moves left.
-/

namespace DockConsole.Header

section Place

variable {spacing right right' share share' x x' : Int} {cs : List Column} {i : ℕ} {s t : Span}

/-- Of columns that ask for the same, none is narrower where there is more room. -/
lemma width_place_mono (hroom : right - x ≤ right' - x')
    (hs : (place spacing right share x cs)[i]? = some s)
    (ht : (place spacing right' share x' cs)[i]? = some t) : s.width ≤ t.width := by
  induction cs generalizing i x x' with
  | nil => cases hs
  | cons c cs ih =>
    cases i with
    | zero =>
      simp only [place, List.getElem?_cons_zero, Option.some.injEq] at hs ht
      subst hs ht
      simp only
      omega
    | succ i =>
      -- the first column grows by no more than the room does, and leaves no less to the others
      exact ih (by omega) hs ht

/-- Columns that are no narrower do not start earlier. -/
lemma x_place_mono (hx : x ≤ x')
    (hwidths : ∀ (j : ℕ) (s t : Span), (place spacing right share x cs)[j]? = some s →
      (place spacing right' share' x' cs)[j]? = some t → s.width ≤ t.width)
    (hs : (place spacing right share x cs)[i]? = some s)
    (ht : (place spacing right' share' x' cs)[i]? = some t) : s.x ≤ t.x := by
  induction cs generalizing i x x' with
  | nil => cases hs
  | cons c cs ih =>
    cases i with
    | zero =>
      obtain rfl := Option.some.inj hs
      obtain rfl := Option.some.inj ht
      exact hx
    | succ i =>
      have hfirst := hwidths 0 _ _ rfl rfl
      simp only at hfirst
      exact ih (by omega) (fun j => hwidths (j + 1)) hs ht

end Place

variable {h : Header} {width width' : Int}

lemma share_of_free_nonpos (hfree : h.free ≤ 0) : h.share = 0 := by
  unfold free at hfree
  unfold share
  rw [max_eq_left hfree, Int.zero_ediv]

lemma free_align_mono (h : Header) (x : Int) (hwidth : width ≤ width') :
    (h.align x width).free ≤ (h.align x width').free := by
  have hgrows : (width.toNat : Int) ≤ width'.toNat := by omega
  exact Int.sub_le_sub_right (Int.sub_le_sub_right hgrows _) _

lemma share_align_mono (h : Header) (x : Int) (hwidth : width ≤ width') :
    (h.align x width).share ≤ (h.align x width').share := by
  have hfree := h.free_align_mono x hwidth
  unfold free at hfree
  unfold share
  rcases Nat.eq_zero_or_pos h.flexibleCount with hzero | hpos
  · have hnone : ∀ w, (h.align x w).flexibleCount = 0 := fun _ => hzero
    simp [hnone]
  · exact Int.ediv_le_ediv (Int.natCast_pos.mpr hpos) (by omega)

/-- Where there is room, a column is as wide as it asks to be. -/
lemma Roomy.width_layout (hr : h.Roomy) {i : ℕ} {c : Column} {s : Span}
    (hc : h.columns[i]? = some c) (hs : h.layout[i]? = some s) :
    s.width = c.fixedWidth.getD h.share := by
  have hwidths := congrArg (·[i]?) hr.map_width_layout
  simp only [List.getElem?_map, hc, hs, Option.map_some, Option.some.injEq] at hwidths
  exact hwidths

lemma width_layout_mono (hfixed : ∀ c ∈ h.columns, ∀ w, c.fixedWidth = some w → 0 ≤ w)
    (hspacing : 0 ≤ h.spacing) {x : Int} (hwidth : width ≤ width') {i : ℕ} {s t : Span}
    (hs : (h.align x width).layout[i]? = some s) (ht : (h.align x width').layout[i]? = some t) :
    s.width ≤ t.width := by
  obtain ⟨hi, -⟩ := List.getElem?_eq_some_iff.mp hs
  rw [layout, length_place] at hi
  obtain ⟨c, hc⟩ : ∃ c, h.columns[i]? = some c := ⟨_, List.getElem?_eq_getElem hi⟩
  rcases le_or_gt 0 (h.align x width').free with hroom | hcut
  · -- the wider header gives all that is asked for, and is asked for no less
    have hne : h.columns ≠ [] := List.ne_nil_of_length_pos (Nat.zero_lt_of_lt hi)
    have hr : (h.align x width').Roomy := ⟨hne, hfixed, hspacing, hroom⟩
    have hasked : c.fixedWidth.getD (h.align x width).share ≤
        c.fixedWidth.getD (h.align x width').share := by
      cases c.fixedWidth with
      | none => exact h.share_align_mono x hwidth
      | some w => exact le_rfl
    have hnonneg := hr.wanted_nonneg c (List.mem_of_getElem? hc)
    have hgiven := (width_place hc hs).1
    rw [hr.width_layout hc ht]
    omega
  · -- both headers are cut and share out nothing
    have hshare' : (h.align x width').share = 0 := share_of_free_nonpos hcut.le
    have hshare : (h.align x width).share = 0 :=
      share_of_free_nonpos ((h.free_align_mono x hwidth).trans hcut.le)
    rw [layout, hshare] at hs
    rw [layout, hshare'] at ht
    exact width_place_mono (by simp only [align]; omega) hs ht

/-- **Widening never narrows a column**: in a header that is made wider every column is at least as
wide as before, and starts no earlier. -/
theorem layout_widens (columns : List Column)
    (hfixed : ∀ c ∈ columns, ∀ w, c.fixedWidth = some w → 0 ≤ w) (spacing x width width' : Int)
    (hspacing : 0 ≤ spacing) (hwidth : width ≤ width') :
    let narrow := (Header.align { columns, spacing } x width).layout
    let wide := (Header.align { columns, spacing } x width').layout
    narrow.length = columns.length ∧ wide.length = columns.length ∧
      ∀ (i : ℕ) (s t : Span), narrow[i]? = some s → wide[i]? = some t →
        s.width ≤ t.width ∧ s.x ≤ t.x := by
  intro narrow wide
  have hwidths : ∀ (i : ℕ) (s t : Span), narrow[i]? = some s → wide[i]? = some t →
      s.width ≤ t.width := fun i s t =>
    width_layout_mono (h := { columns, spacing }) hfixed hspacing hwidth
  refine ⟨length_place, length_place, fun i s t hs ht => ⟨hwidths i s t hs ht, ?_⟩⟩
  exact x_place_mono le_rfl hwidths hs ht

/-- A header of six columns cuts its last column and has none to share out; one of twelve gives each
what it asks for. -/
theorem layout_widens_past_cut :
    let columns : List Column := [{ title := ['a'], fixedWidth := some 3 }, { title := ['b'] },
      { title := ['c'], fixedWidth := some 4 }]
    let narrow := (Header.align { columns, spacing := 1 } 2 6).layout
    let wide := (Header.align { columns, spacing := 1 } 2 12).layout
    ((∀ c ∈ columns, ∀ w, c.fixedWidth = some w → 0 ≤ w) ∧ (0 : Int) ≤ 1 ∧ (6 : Int) ≤ 12) ∧
      narrow = [⟨2, 3⟩, ⟨6, 0⟩, ⟨7, 1⟩] ∧ wide = [⟨2, 3⟩, ⟨6, 3⟩, ⟨10, 4⟩] ∧
      ∀ (i : ℕ) (s t : Span), narrow[i]? = some s → wide[i]? = some t →
        s.width ≤ t.width ∧ s.x ≤ t.x := by
  intro columns narrow wide
  have hfixed : ∀ c ∈ columns, ∀ w, c.fixedWidth = some w → 0 ≤ w := by simp [columns]
  obtain ⟨-, -, hwidens⟩ := layout_widens columns hfixed 1 2 6 12 (by decide) (by decide)
  exact ⟨⟨hfixed, by decide, by decide⟩, by decide, by decide, hwidens⟩

end DockConsole.Header
