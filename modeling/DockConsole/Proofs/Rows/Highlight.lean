import DockConsole.Proofs.Rows.Order

/-!
Highlighting one of the rows that a pattern lets through.

It changes neither the rows nor which of them the pattern lets through, only the mark of one.
-/

namespace DockConsole

namespace Row

/-- The row with its mark set or cleared. -/
def mark (on : Bool) (r : Row) : Row := { r with highlighted := on }

/-- The row wherever it is drawn. -/
def unplaced (r : Row) : Row := r.align 0 0

/-- The row as it was built: without its mark and its place. -/
def bare (r : Row) : Row := r.unplaced.mark false

end Row

namespace Rows

variable {pattern : Text}

lemma highlight_cons_of_matches {r : Row} (h : r.matchesName pattern) (rows : List Row) :
    ∀ index, highlight pattern index (r :: rows) =
      match index with
      | 0 => r.mark true :: rows
      | index + 1 => r :: highlight pattern index rows
  | 0 => by simp only [highlight, h, if_true]; rfl
  | index + 1 => by simp only [highlight, h, if_true]

lemma highlight_cons_of_not {r : Row} (h : ¬ r.matchesName pattern) (index : ℕ)
    (rows : List Row) :
    highlight pattern index (r :: rows) = r :: highlight pattern index rows := by
  cases index <;> simp only [highlight, h, Bool.false_eq_true, if_false]

/-- A view of rows that does not see the mark does not see the highlight. -/
lemma map_highlight {α : Type} {f : Row → α} (hf : ∀ r, f (r.mark true) = f r) (index : ℕ)
    (rows : List Row) : (highlight pattern index rows).map f = rows.map f := by
  induction rows generalizing index with
  | nil => rfl
  | cons r rows ih =>
    by_cases h : r.matchesName pattern
    · rw [highlight_cons_of_matches h]
      cases index with
      | zero => simp [hf]
      | succ index => simp [ih]
    · rw [highlight_cons_of_not h, List.map_cons, ih, List.map_cons]

lemma highlight_map {f : Row → Row} (hfields : ∀ r, (f r).fields = r.fields)
    (hmark : ∀ r, f (r.mark true) = (f r).mark true) (index : ℕ) (rows : List Row) :
    (highlight pattern index rows).map f = highlight pattern index (rows.map f) := by
  induction rows generalizing index with
  | nil => rfl
  | cons r rows ih =>
    have hmatches : (f r).matchesName pattern = r.matchesName pattern := by
      rw [Row.matchesName, Row.matchesName, field_map hfields]
    by_cases h : r.matchesName pattern
    · rw [highlight_cons_of_matches h, List.map_cons, highlight_cons_of_matches (hmatches ▸ h)]
      cases index with
      | zero => simp [hmark]
      | succ index => simp [ih]
    · rw [highlight_cons_of_not h, List.map_cons, List.map_cons,
        highlight_cons_of_not (hmatches ▸ h), ih]

lemma filter_highlight (index : ℕ) (rows : List Row) :
    filter (highlight pattern index rows) pattern =
      (filter rows pattern).modify index (Row.mark true) := by
  induction rows generalizing index with
  | nil => simp [highlight, filter]
  | cons r rows ih =>
    simp only [filter] at ih ⊢
    by_cases h : r.matchesName pattern
    · have hmark : (r.mark true).matchesName pattern := h
      rw [highlight_cons_of_matches h]
      cases index with
      | zero => simp [h, hmark]
      | succ index => simp [h, ih]
    · rw [highlight_cons_of_not h]
      simp [h, ih]

/-- **One highlight**: of rows without a mark, only the one at `index` among those the pattern lets
through gets it. -/
lemma marked_highlight {rows : List Row} (hplain : ∀ r ∈ rows, r.highlighted = false)
    (index : ℕ) :
    (highlight pattern index rows).filter (·.highlighted) =
      ((filter rows pattern)[index]?.map (Row.mark true)).toList := by
  have hnone {rows : List Row} (h : ∀ r ∈ rows, r.highlighted = false) :
      rows.filter (·.highlighted) = [] :=
    List.filter_eq_nil_iff.mpr fun r hr => by simp [h r hr]
  induction rows generalizing index with
  | nil => simp [highlight, filter]
  | cons r rows ih =>
    have hr := hplain r List.mem_cons_self
    have hrows : ∀ s ∈ rows, s.highlighted = false := fun s hs =>
      hplain s (List.mem_cons_of_mem r hs)
    simp only [filter] at ih ⊢
    by_cases h : r.matchesName pattern
    · rw [highlight_cons_of_matches h]
      cases index with
      | zero => simp [h, hnone hrows, Row.mark]
      | succ index => simp [h, hr, ih hrows]
    · rw [highlight_cons_of_not h]
      simp [h, hr, ih hrows]

lemma highlighted_of_mem_plain {rows : List Row} {r : Row} (h : r ∈ plain rows) :
    r.highlighted = false := by
  obtain ⟨s, -, rfl⟩ := List.mem_map.mp h
  rfl

end Rows

end DockConsole
