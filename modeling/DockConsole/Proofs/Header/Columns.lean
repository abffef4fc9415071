import DockConsole.Proofs.Canvas.Clipped
import DockConsole.Proofs.Header.Layout
import DockConsole.Proofs.Rows.Highlight

/-!
Texts in the columns of a header.

A text starts where its column does and is cut to it, and as columns do not overlap, what is let
through of one is not written over by another. Rows and column titles are drawn that way, so values
stand under their titles, and a highlighted row shows the characters it shows without the mark.
-/

namespace DockConsole

open Canvas

namespace Header

/-- Of texts that start with their spans and are cut to them, the `i`th has `ch` in column `x`. -/
def Shows (es : List (Span × Text)) (x : Int) (i : ℕ) (ch : Char) : Prop :=
  ∃ (s : Span) (text : Text) (j : ℕ),
    es[i]? = some (s, text) ∧ (j : Int) < s.width ∧ text[j]? = some ch ∧ x = s.x + j

section Shows

variable {es : List (Span × Text)} {e : Span × Text} {x y : Int} {i k : ℕ} {ch d : Char}
  {c : Canvas} {p : Pos}

lemma shows_cons_succ : Shows (e :: es) x (i + 1) ch ↔ Shows es x i ch := Iff.rfl

lemma shows_cons_zero : Shows (e :: es) x 0 ch ↔
    e.1.x ≤ x ∧ (clip e.2 (some e.1.width))[(x - e.1.x).toNat]? = some ch := by
  constructor
  · rintro ⟨s, text, j, he, hj, hch, rfl⟩
    obtain rfl := Option.some.inj he
    have hat : (s.x + j - s.x).toNat = j := by omega
    rw [getElem?_clip, hat, if_pos hj]
    exact ⟨by simp only; omega, hch⟩
  · rintro ⟨hx, hch⟩
    rw [getElem?_clip] at hch
    split at hch
    · next hj => exact ⟨e.1, e.2, _, rfl, hj, hch, by omega⟩
    · cases hch

lemma Shows.mem (h : Shows es x i ch) : ∃ e ∈ es, e.1.x ≤ x ∧ x < e.1.x + e.1.width := by
  obtain ⟨s, text, j, he, hj, -, rfl⟩ := h
  exact ⟨_, List.mem_of_getElem? he, by simp only; omega⟩

/-- Where no text has a character, writing them changes nothing. -/
lemma get?_writeColumns_of_not_shows (first rest : Style)
    (h : p.y = y → ∀ i ch, ¬ Shows es p.x i ch) :
    (writeColumns y first rest c es).get? p = c.get? p := by
  induction es generalizing c first with
  | nil => rfl
  | cons e es ih =>
    rw [writeColumns, ih rest fun hp i ch => h hp (i + 1) ch, get?_write]
    split
    · next hline =>
      rcases hch : (clip e.2 (some e.1.width))[(p.x - e.1.x).toNat]? with _ | ch
      · rfl
      · exact absurd (shows_cons_zero.mpr ⟨hline.2.1, hch⟩) (h hline.1 0 ch)
    · rfl

/-- What a text has in a column stays there, if later spans start behind it. -/
lemma get?_writeColumns_of_shows (hes : es.Pairwise fun e f => e.1.x + e.1.width ≤ f.1.x)
    (first rest : Style) (h : Shows es p.x i ch) (hline : p.y = y) (hx : 0 ≤ p.x) (hy : 0 ≤ p.y) :
    (writeColumns y first rest c es).get? p =
      some ⟨[ch], if i = 0 then first else rest⟩ := by
  induction es generalizing c first i with
  | nil =>
    obtain ⟨_, _, _, he, -⟩ := h
    cases he
  | cons e es ih =>
    obtain ⟨hhead, htail⟩ := List.pairwise_cons.mp hes
    cases i with
    | zero =>
      obtain ⟨hleft, hch⟩ := shows_cons_zero.mp h
      have hlater : ∀ k d, ¬ Shows es p.x k d := by
        intro k d hd
        obtain ⟨f, hf, hfx, -⟩ := hd.mem
        have := hhead f hf
        obtain ⟨s, text, j, he, hj, -, hpx⟩ := h
        obtain rfl := Option.some.inj he
        simp only at this
        omega
      rw [writeColumns, get?_writeColumns_of_not_shows rest rest fun _ => hlater, get?_write,
        if_pos ⟨hline, hleft, hx, hy⟩, hch]
      rfl
    | succ i =>
      rw [writeColumns, ih htail rest (shows_cons_succ.mp h), if_neg (Nat.succ_ne_zero i), ite_self]

/-- No two texts have a character in one column. -/
lemma Shows.unique (hes : es.Pairwise fun e f => e.1.x + e.1.width ≤ f.1.x)
    (h : Shows es x i ch) (h' : Shows es x k d) : k = i ∧ d = ch := by
  obtain ⟨s, text, j, he, hj, hch, rfl⟩ := h
  obtain ⟨t, text', j', hf, hj', hd, hx⟩ := h'
  have hbefore : ∀ {i k : ℕ} {e f : Span × Text}, es[i]? = some e → es[k]? = some f → i < k →
      e.1.x + e.1.width ≤ f.1.x := by
    intro i k e f he hf hlt
    obtain ⟨hi, rfl⟩ := List.getElem?_eq_some_iff.mp he
    obtain ⟨hk, rfl⟩ := List.getElem?_eq_some_iff.mp hf
    exact List.pairwise_iff_getElem.mp hes i k hi hk hlt
  rcases Nat.lt_trichotomy i k with hlt | rfl | hlt
  · have := hbefore he hf hlt
    simp only at this
    omega
  · rw [he] at hf
    cases hf
    have hat : j' = j := by omega
    rw [hat, hch] at hd
    exact ⟨rfl, (Option.some.inj hd).symm⟩
  · have := hbefore hf he hlt
    simp only at this
    omega

/-- The cells of texts in columns that do not overlap: their characters, and around them what was
there before. -/
lemma get?_writeColumns_eq_some (hes : es.Pairwise fun e f => e.1.x + e.1.width ≤ f.1.x)
    (first rest : Style) {cell : Cell} :
    (writeColumns y first rest c es).get? p = some cell ↔
      (p.y = y ∧ 0 ≤ p.x ∧ 0 ≤ p.y ∧
        ∃ i ch, Shows es p.x i ch ∧ cell = ⟨[ch], if i = 0 then first else rest⟩) ∨
      (p.y = y → ∀ i ch, ¬ Shows es p.x i ch) ∧ c.get? p = some cell := by
  constructor
  · intro hcell
    by_cases hshown : p.y = y ∧ ∃ i ch, Shows es p.x i ch
    · obtain ⟨hline, i, ch, h⟩ := hshown
      obtain ⟨hx, hy⟩ := inside_of_get? hcell
      rw [get?_writeColumns_of_shows hes first rest h hline hx hy] at hcell
      exact .inl ⟨hline, hx, hy, i, ch, h, (Option.some.inj hcell).symm⟩
    · have hnone : p.y = y → ∀ i ch, ¬ Shows es p.x i ch := fun hline i ch h =>
        hshown ⟨hline, i, ch, h⟩
      rw [get?_writeColumns_of_not_shows first rest hnone] at hcell
      exact .inr ⟨hnone, hcell⟩
  · rintro (⟨hline, hx, hy, i, ch, h, rfl⟩ | ⟨hnone, hcell⟩)
    · exact get?_writeColumns_of_shows hes first rest h hline hx hy
    · rw [get?_writeColumns_of_not_shows first rest hnone, hcell]

lemma get?_writeColumns_empty (hes : es.Pairwise fun e f => e.1.x + e.1.width ≤ f.1.x) (hy : 0 ≤ y)
    (first rest : Style) {cell : Cell} :
    (writeColumns y first rest .empty es).get? p = some cell ↔
      p.y = y ∧ 0 ≤ p.x ∧
        ∃ i ch, Shows es p.x i ch ∧ cell = ⟨[ch], if i = 0 then first else rest⟩ := by
  rw [get?_writeColumns_eq_some hes, get?_empty]
  constructor
  · rintro (⟨hline, hx, -, hcell⟩ | ⟨-, hcell⟩)
    · exact ⟨hline, hx, hcell⟩
    · cases hcell
  · rintro ⟨hline, hx, hcell⟩
    exact .inl ⟨hline, hx, by omega, hcell⟩

end Shows

/-- The columns of a header do not overlap, whatever texts are put into them. -/
lemma pairwise_layout_zip {h : Header} (hspacing : 0 ≤ h.spacing) (texts : List Text) :
    (h.layout.zip texts).Pairwise fun e f => e.1.x + e.1.width ≤ f.1.x := by
  have hlayout : h.layout.Pairwise fun s t => s.x + s.width ≤ t.x := pairwise_place hspacing
  rw [List.pairwise_iff_getElem] at hlayout ⊢
  intro i j hi hj hlt
  rw [List.length_zip] at hi hj
  simp only [List.getElem_zip]
  exact hlayout i j (by omega) (by omega) hlt

lemma get?_draw {h : Header} (hspacing : 0 ≤ h.spacing) (active : SortMode) {y : Int} (hy : 0 ≤ y)
    {p : Pos} {cell : Cell} :
    (h.draw active y).get? p = some cell ↔ p.y = y ∧ 0 ≤ p.x ∧
      ∃ i ch, Shows (h.layout.zip (h.shownTitles active)) p.x i ch ∧ cell = ⟨[ch], .header⟩ := by
  have htitles : (h.layout.zip (h.shownTitles active)).Pairwise fun e f =>
      e.1.x + e.1.width ≤ f.1.x := pairwise_layout_zip hspacing _
  rw [draw, get?_writeColumns_empty htitles hy]
  simp only [ite_self]

end Header

open Header

namespace Row

variable {h : Header} {r : Row} {y : Int} {p : Pos} {cell : Cell}

lemma get?_draw_unmarked (hspacing : 0 ≤ h.spacing) (r : Row) (hy : 0 ≤ y) :
    ((r.mark false).draw h y).get? p = some cell ↔ p.y = y ∧ 0 ≤ p.x ∧
      ∃ i ch, Shows (h.layout.zip (h.titles.map r.field)) p.x i ch ∧
        cell = ⟨[ch], if i = 0 then if r.container.running then .running else .stopped
          else .plain⟩ :=
  get?_writeColumns_empty (pairwise_layout_zip hspacing _) hy _ .plain

/-- The values of a marked row stand on a blank line in the highlight style. -/
lemma get?_draw_marked (hspacing : 0 ≤ h.spacing) (hx : r.x = h.x) (hwidth : r.width = h.width)
    (hy : 0 ≤ y) :
    ((r.mark true).draw h y).get? p = some cell ↔ p.y = y ∧ 0 ≤ p.x ∧
      ((∃ i ch, Shows (h.layout.zip (h.titles.map r.field)) p.x i ch ∧
          cell = ⟨[ch], .highlight⟩) ∨
        (h.x ≤ p.x ∧ p.x < h.x + h.width) ∧
          (∀ i ch, ¬ Shows (h.layout.zip (h.titles.map r.field)) p.x i ch) ∧
            cell = ⟨[' '], .highlight⟩) := by
  have hvalues : (h.layout.zip (h.titles.map r.field)).Pairwise fun e f =>
      e.1.x + e.1.width ≤ f.1.x := pairwise_layout_zip hspacing _
  have hdraw : (r.mark true).draw h y = writeColumns y .highlight .highlight
      (Canvas.empty.fill h.x y h.width .highlight) (h.layout.zip (h.titles.map r.field)) := by
    rw [← hx, ← hwidth]
    rfl
  rw [hdraw, get?_writeColumns_eq_some hvalues, get?_fill]
  simp only [ite_self, get?_empty]
  constructor
  · rintro (⟨hline, hx, -, hcell⟩ | ⟨hnone, hcell⟩)
    · exact ⟨hline, hx, .inl hcell⟩
    · split at hcell
      · next hfill =>
        obtain ⟨hline, hleft, hright, hx, -⟩ := hfill
        exact ⟨hline, hx, .inr ⟨⟨hleft, hright⟩, hnone hline, (Option.some.inj hcell).symm⟩⟩
      · cases hcell
  · rintro ⟨hline, hx, hcell | ⟨⟨hleft, hright⟩, hnone, rfl⟩⟩
    · exact .inl ⟨hline, hx, by omega, hcell⟩
    · exact .inr ⟨fun _ => hnone, if_pos ⟨hline, hleft, hright, hx, by omega⟩⟩

end Row

/-- **Rows stand under their titles**: each column shows the value for its title from where the
column starts, cut to its width, and no two columns show a character in one place. The first is in
the style of the state, the others are plain, and there are no other cells. The mark changes none of
these characters: it puts all in the highlight style, with blanks in the rest of the header's place.
The titles shown are cut to the same columns. -/
theorem row_under_titles (h : Header) (hspacing : 0 ≤ h.spacing) (r : Row) (hx : r.x = h.x)
    (hwidth : r.width = h.width) (y : Int) (hy : 0 ≤ y) :
    let values := h.layout.zip (h.titles.map r.field)
    let plain := (r.mark false).draw h y
    let lit := (r.mark true).draw h y
    let indicator := if r.container.running then Style.running else .stopped
    (∀ (x : Int) (i k : ℕ) (ch d : Char), Shows values x i ch → Shows values x k d →
        k = i ∧ d = ch) ∧
      (∀ p cell, plain.get? p = some cell ↔ p.y = y ∧ 0 ≤ p.x ∧
        ∃ i ch, Shows values p.x i ch ∧ cell = ⟨[ch], if i = 0 then indicator else .plain⟩) ∧
      (∀ p cell, lit.get? p = some cell ↔ p.y = y ∧ 0 ≤ p.x ∧
        ((∃ i ch, Shows values p.x i ch ∧ cell = ⟨[ch], .highlight⟩) ∨
          (h.x ≤ p.x ∧ p.x < h.x + h.width) ∧ (∀ i ch, ¬ Shows values p.x i ch) ∧
            cell = ⟨[' '], .highlight⟩)) ∧
      (∀ p cell, plain.get? p = some cell → lit.get? p = some ⟨cell.glyph, .highlight⟩) ∧
      ∀ active p cell, (h.draw active y).get? p = some cell ↔ p.y = y ∧ 0 ≤ p.x ∧
        ∃ i ch, Shows (h.layout.zip (h.shownTitles active)) p.x i ch ∧ cell = ⟨[ch], .header⟩ := by
  intro values plain lit indicator
  have hvalues : values.Pairwise fun e f => e.1.x + e.1.width ≤ f.1.x :=
    pairwise_layout_zip hspacing _
  refine ⟨fun x i k ch d => Shows.unique hvalues, fun p cell => r.get?_draw_unmarked hspacing hy,
    fun p cell => Row.get?_draw_marked hspacing hx hwidth hy, fun p cell hcell => ?_,
    fun active p cell => get?_draw hspacing active hy⟩
  obtain ⟨hline, hleft, i, ch, hshows, rfl⟩ := (r.get?_draw_unmarked hspacing hy).mp hcell
  exact (Row.get?_draw_marked hspacing hx hwidth hy).mpr ⟨hline, hleft, .inl ⟨i, ch, hshows, rfl⟩⟩

/-- A row that starts left of the screen, where its bullet is cut off with the first column. Two
columns of one title show the same value, cut to three and to two characters. -/
theorem row_under_titles_twice_named :
    let columns : List Column := [{ title := [], fixedWidth := some 1 },
      { title := ['A'], fixedWidth := some 3 }, { title := ['A'] }]
    let h := Header.align { columns, spacing := 1 } (-1) 8
    let r := (Row.ofContainer h.titles { id := "ab".toList, image := "wxyz".toList }).align (-1) 8
    (0 ≤ h.spacing ∧ r.x = h.x ∧ r.width = h.width ∧ (0 : Int) ≤ 2) ∧
      h.layout = [⟨-1, 1⟩, ⟨1, 3⟩, ⟨5, 2⟩] ∧
      ((r.mark false).draw h 2).get? ⟨3, 2⟩ = some ⟨['y'], .plain⟩ ∧
      ((r.mark true).draw h 2).get? ⟨6, 2⟩ = some ⟨['x'], .highlight⟩ ∧
      (h.draw .unsorted 2).get? ⟨5, 2⟩ = some ⟨['A'], .header⟩ := by
  intro columns h r
  obtain ⟨-, hplain, hlit, -, htitles⟩ :=
    row_under_titles h (by decide) r rfl rfl 2 (by decide)
  refine ⟨by decide, by decide, ?_, ?_, ?_⟩
  · refine (hplain _ _).mpr ⟨rfl, by decide, 1, 'y', ?_, rfl⟩
    exact ⟨⟨1, 3⟩, "wxyz".toList, 2, by decide, by decide, rfl, rfl⟩
  · refine (hlit _ _).mpr ⟨rfl, by decide, .inl ⟨2, 'x', ?_, rfl⟩⟩
    exact ⟨⟨5, 2⟩, "wxyz".toList, 1, by decide, by decide, rfl, rfl⟩
  · refine (htitles _ _ _).mpr ⟨rfl, by decide, 2, 'A', ?_, rfl⟩
    exact ⟨⟨5, 2⟩, ['A'], 0, by decide, by decide, rfl, rfl⟩

end DockConsole
