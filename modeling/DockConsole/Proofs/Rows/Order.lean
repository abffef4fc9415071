import DockConsole.Rows
import Mathlib.Data.List.Basic

/-!
The order of sorted rows.

A sort keeps the rows, brings their keys in order, and leaves the rows of one key as they were. No
other list does all three, so two lists sort to the same one exactly when the rows of each key stand
in the same order in both.
-/

namespace DockConsole.Rows

variable {key : Row → Text} {xs ys : List Row}

lemma insert_perm (r : Row) (rows : List Row) : (insert key r rows).Perm (r :: rows) := by
  induction rows with
  | nil => exact .refl _
  | cons s rows ih =>
    rw [insert]
    split
    · exact .refl _
    · exact (ih.cons s).trans (.swap r s rows)

lemma sortBy_perm (rows : List Row) : (sortBy key rows).Perm rows := by
  induction rows with
  | nil => exact .refl _
  | cons r rows ih => exact (insert_perm r _).trans (ih.cons r)

lemma sorted_insert (r : Row) {rows : List Row} (h : rows.Pairwise fun a b => key a ≤ key b) :
    (insert key r rows).Pairwise fun a b => key a ≤ key b := by
  induction rows with
  | nil => simp [insert]
  | cons s rows ih =>
    obtain ⟨hs, hrows⟩ := List.pairwise_cons.mp h
    rw [insert]
    split
    · next hle =>
      refine List.pairwise_cons.mpr ⟨fun a ha => ?_, h⟩
      rcases List.mem_cons.mp ha with rfl | ha
      · exact hle
      · exact List.le_trans hle (hs a ha)
    · next hle =>
      refine List.pairwise_cons.mpr ⟨fun a ha => ?_, ih hrows⟩
      rcases List.mem_cons.mp ((insert_perm r rows).mem_iff.mp ha) with rfl | ha
      · exact (List.le_total (key s) (key a)).resolve_right hle
      · exact hs a ha

lemma sorted_sortBy (rows : List Row) : (sortBy key rows).Pairwise fun a b => key a ≤ key b := by
  induction rows with
  | nil => exact .nil
  | cons r rows ih => exact sorted_insert r ih

/-! ### Rows of one key -/

lemma filter_insert (r : Row) (rows : List Row) (k : Text) :
    (insert key r rows).filter (key · = k) = (r :: rows).filter (key · = k) := by
  induction rows with
  | nil => rfl
  | cons s rows ih =>
    rw [insert]
    split
    · rfl
    · next hle =>
      -- the row that `r` passes has a smaller key, so at most one of the two is kept
      have hne : ¬ (key r = k ∧ key s = k) := by
        rintro ⟨hr, hs⟩
        exact hle (hr.trans hs.symm ▸ List.le_refl _)
      rw [List.filter_cons, ih]
      by_cases hr : key r = k
      · have hs : ¬ key s = k := fun hs => hne ⟨hr, hs⟩
        simp [hr, hs]
      · simp [List.filter_cons, hr]

lemma filter_sortBy (rows : List Row) (k : Text) :
    (sortBy key rows).filter (key · = k) = rows.filter (key · = k) := by
  induction rows with
  | nil => rfl
  | cons r rows ih =>
    rw [sortBy, List.foldr_cons, filter_insert, List.filter_cons, List.filter_cons]
    exact ite_congr rfl (fun _ => congrArg _ ih) fun _ => ih

section Sorted

variable {κ : Type} {key : Row → κ} {le : κ → κ → Prop}

lemma key_head_le (hrefl : ∀ k, le k k) {x : Row}
    (hx : (x :: xs).Pairwise fun a b => le (key a) (key b)) {r : Row} (hr : r ∈ x :: xs) :
    le (key x) (key r) := by
  rcases List.mem_cons.mp hr with rfl | hr
  · exact hrefl _
  · exact List.rel_of_pairwise_cons hx hr

variable [DecidableEq κ]

lemma mem_of_filter_eq (h : ∀ k, xs.filter (key · = k) = ys.filter (key · = k)) {r : Row}
    (hr : r ∈ xs) : r ∈ ys := by
  have : r ∈ xs.filter (key · = key r) := by simpa using hr
  rw [h] at this
  exact (List.mem_filter.mp this).1

/-- A sorted list is known by its rows of each key. -/
lemma eq_of_sorted (hrefl : ∀ k, le k k) (hantisymm : ∀ k l, le k l → le l k → k = l)
    (hx : xs.Pairwise fun a b => le (key a) (key b))
    (hy : ys.Pairwise fun a b => le (key a) (key b))
    (h : ∀ k, xs.filter (key · = k) = ys.filter (key · = k)) : xs = ys := by
  induction xs generalizing ys with
  | nil =>
    cases ys with
    | nil => rfl
    | cons y ys =>
      have hy : y ∈ [] := mem_of_filter_eq (fun k => (h k).symm) List.mem_cons_self
      simp at hy
  | cons x xs ih =>
    cases ys with
    | nil => exact absurd (mem_of_filter_eq h List.mem_cons_self) (by simp)
    | cons y ys =>
      have hxy : key x = key y :=
        hantisymm _ _
          (key_head_le hrefl hx (mem_of_filter_eq (fun k => (h k).symm) List.mem_cons_self))
          (key_head_le hrefl hy (mem_of_filter_eq h List.mem_cons_self))
      obtain rfl : x = y := by
        have := h (key x)
        simp only [List.filter_cons, hxy, decide_true, if_true, List.cons.injEq] at this
        exact this.1
      have htail : xs = ys := by
        refine ih (List.pairwise_cons.mp hx).2 (List.pairwise_cons.mp hy).2 fun k => ?_
        have := h k
        by_cases hk : key x = k <;> simpa [List.filter_cons, hk] using this
      rw [htail]

end Sorted

/-- **Stability**: lists sort alike exactly if they hold the rows of each key in the same order. -/
theorem sortBy_eq_sortBy_iff :
    sortBy key xs = sortBy key ys ↔ ∀ k, xs.filter (key · = k) = ys.filter (key · = k) := by
  constructor
  · intro h k
    rw [← filter_sortBy xs, h, filter_sortBy]
  · intro h
    refine eq_of_sorted List.le_refl (fun _ _ => List.le_antisymm) (sorted_sortBy xs)
      (sorted_sortBy ys) fun k => ?_
    rw [filter_sortBy, filter_sortBy, h]

/-! ### Orders -/

/-- The text that an order goes by; without an order all rows tie. -/
def keyIn (mode : SortMode) (r : Row) : Option Text := mode.title?.map r.field

lemma sort_perm (rows : List Row) (mode : SortMode) : (sort rows mode).Perm rows := by
  rw [sort]
  split
  · exact .refl _
  · exact sortBy_perm rows

lemma keyIn_eq_some {mode : SortMode} {title : Text} (h : mode.title? = some title) (r : Row)
    (k : Text) : keyIn mode r = some k ↔ r.field title = k := by
  rw [keyIn, h, Option.map_some, Option.some.injEq]

theorem sort_eq_sort_iff {mode : SortMode} :
    sort xs mode = sort ys mode ↔
      ∀ k, xs.filter (keyIn mode · = k) = ys.filter (keyIn mode · = k) := by
  rcases htitle : mode.title? with _ | title
  · simp only [sort, htitle, keyIn, Option.map_none]
    constructor
    · rintro rfl k; rfl
    · intro h; simpa using h none
  · simp only [sort, htitle]
    rw [sortBy_eq_sortBy_iff]
    constructor
    · rintro h (_ | k)
      · simp [keyIn, htitle]
      · simpa only [keyIn_eq_some htitle] using h k
    · intro h k
      simpa only [keyIn_eq_some htitle] using h (some k)

lemma sort_sort (rows : List Row) (mode : SortMode) :
    sort (sort rows mode) mode = sort rows mode := by
  rcases htitle : mode.title? with _ | title
  · simp only [sort, htitle]
  · simp only [sort, htitle]
    exact sortBy_eq_sortBy_iff.mpr fun k => filter_sortBy rows k

/-- `ys` are the rows `xs` in the order `mode`: the same rows, with keys that never go down, and
with rows that tie as they stood. -/
structure Sorts (mode : SortMode) (xs ys : List Row) : Prop where
  perm : ys.Perm xs
  ordered : ∀ title ∈ mode.title?, ys.Pairwise fun r s => r.field title ≤ s.field title
  ties : ∀ k, ys.filter (keyIn mode · = k) = xs.filter (keyIn mode · = k)

lemma sorts_sort (rows : List Row) (mode : SortMode) : Sorts mode rows (sort rows mode) where
  perm := sort_perm rows mode
  ordered title htitle := by
    rw [sort, show mode.title? = some title from htitle]
    exact sorted_sortBy rows
  ties := sort_eq_sort_iff.mp (sort_sort rows mode)

/-- Nothing but the sort brings rows in order. -/
theorem sorts_iff {mode : SortMode} : Sorts mode xs ys ↔ ys = sort xs mode := by
  constructor
  · intro h
    have hsort : sort ys mode = sort xs mode := sort_eq_sort_iff.mpr h.ties
    rw [← hsort]
    rcases htitle : mode.title? with _ | title
    · simp only [sort, htitle]
    · -- rows in order are left as they are
      simp only [sort, htitle]
      exact eq_of_sorted List.le_refl (fun _ _ => List.le_antisymm) (h.ordered title htitle)
        (sorted_sortBy ys) fun k => (filter_sortBy ys k).symm
  · rintro rfl
    exact sorts_sort xs mode

/-! ### What the fields of a row decide -/

section Fields

variable {f : Row → Row} (hf : ∀ r, (f r).fields = r.fields)

include hf

lemma field_map (r : Row) (title : Text) : (f r).field title = r.field title := by
  rw [Row.field, Row.field, hf]

lemma map_sort (rows : List Row) (mode : SortMode) :
    (sort rows mode).map f = sort (rows.map f) mode := by
  have hinsert (title : Text) (r : Row) (rows : List Row) :
      (insert (·.field title) r rows).map f = insert (·.field title) (f r) (rows.map f) := by
    induction rows with
    | nil => rfl
    | cons s rows ih =>
      rw [insert, List.map_cons, insert, field_map hf, field_map hf]
      split
      · rfl
      · rw [List.map_cons, ih]
  rw [sort, sort]
  split
  · rfl
  · next title _ =>
    induction rows with
    | nil => rfl
    | cons r rows ih =>
      rw [sortBy, List.foldr_cons, hinsert, List.map_cons, sortBy, List.foldr_cons]
      exact congrArg _ ih

lemma map_filter (rows : List Row) (pattern : Text) :
    (filter rows pattern).map f = filter (rows.map f) pattern := by
  rw [filter, filter, List.filter_map]
  refine congrArg _ (List.filter_congr fun r _ => ?_)
  rw [Function.comp_apply, Row.matchesName, Row.matchesName, field_map hf]

end Fields

end DockConsole.Rows
