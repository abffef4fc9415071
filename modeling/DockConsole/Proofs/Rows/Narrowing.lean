import DockConsole.Proofs.Rows.Filter
import DockConsole.Proofs.Rows.Order

/-!
Narrowing by a pattern, beside sorting and beside other patterns.

A filter takes the longest subsequence of the rows that bear the pattern, and no other list is that.
A subsequence of a sorted list is sorted, and rows that tie are not moved by a filter, so it does not
matter whether rows are sorted or narrowed first. A run of characters inside of a longer run is inside
of whatever holds the longer one, so a longer pattern only narrows further.
-/

namespace DockConsole

/-- The name of the row has the pattern in it, in one piece. -/
def Row.Bears (pattern : Text) (r : Row) : Prop :=
  ∃ before after, r.field "NAMES".toList = before ++ pattern ++ after

namespace Rows

variable {p q : Text} {xs ys : List Row}

lemma matchesName_iff_bears {r : Row} : r.matchesName p ↔ r.Bears p := by
  rw [Row.matchesName_iff]
  constructor
  · rintro ⟨before, after, h⟩
    exact ⟨before, after, h.symm⟩
  · rintro ⟨before, after, h⟩
    exact ⟨before, after, h.symm⟩

lemma bears_of_part (h : p <:+: q) {r : Row} (hr : r.Bears q) : r.Bears p := by
  obtain ⟨before, after, rfl⟩ := h
  obtain ⟨left, right, hname⟩ := hr
  exact ⟨left ++ before, after ++ right, by simp only [hname, List.append_assoc]⟩

/-- `ys` are the rows among `xs` that bear the pattern, as they stood: the longest subsequence of
such rows. -/
structure Narrows (pattern : Text) (xs ys : List Row) : Prop where
  sublist : ys.Sublist xs
  bears : ∀ r ∈ ys, r.Bears pattern
  longest : ∀ zs : List Row, zs.Sublist xs → (∀ r ∈ zs, r.Bears pattern) → zs.Sublist ys

lemma narrows_filter (rows : List Row) (pattern : Text) :
    Narrows pattern rows (filter rows pattern) where
  sublist := List.filter_sublist
  bears r hr := matchesName_iff_bears.mp (List.mem_filter.mp hr).2
  longest zs hzs hbear := by
    have hkept : zs.filter (Row.matchesName pattern) = zs :=
      List.filter_eq_self.mpr fun r hr => matchesName_iff_bears.mpr (hbear r hr)
    rw [← hkept]
    exact hzs.filter _

/-- Nothing but the filter narrows rows. -/
lemma narrows_iff {pattern : Text} : Narrows pattern xs ys ↔ ys = filter xs pattern := by
  constructor
  · intro h
    have hfilter := narrows_filter xs pattern
    exact (hfilter.longest ys h.sublist h.bears).antisymm
      (h.longest _ hfilter.sublist hfilter.bears)
  · rintro rfl
    exact narrows_filter xs pattern

/-! ### Sorted rows -/

lemma Sorts.filter {mode : SortMode} (h : Sorts mode xs ys) (pattern : Text) :
    Sorts mode (Rows.filter xs pattern) (Rows.filter ys pattern) where
  perm := h.perm.filter _
  ordered title htitle := (h.ordered title htitle).filter _
  ties k := by
    unfold Rows.filter
    rw [List.filter_comm, h.ties k, List.filter_comm]

lemma filter_sort (rows : List Row) (mode : SortMode) (pattern : Text) :
    filter (sort rows mode) pattern = sort (filter rows pattern) mode :=
  sorts_iff.mp ((sorts_sort rows mode).filter pattern)

/-! ### Several patterns -/

lemma filter_comm (rows : List Row) (p q : Text) :
    filter (filter rows p) q = filter (filter rows q) p := List.filter_comm ..

lemma filter_nil_pattern (rows : List Row) : filter rows [] = rows :=
  List.filter_eq_self.mpr fun r _ =>
    matchesName_iff_bears.mpr ⟨[], r.field "NAMES".toList, rfl⟩

/-- Rows that bear the longer pattern are not lost by the shorter one. -/
lemma filter_filter_of_part (h : p <:+: q) (rows : List Row) :
    filter (filter rows p) q = filter rows q := by
  have hkept : ∀ r ∈ filter rows q, r.matchesName p := fun r hr =>
    matchesName_iff_bears.mpr (bears_of_part h ((narrows_filter rows q).bears r hr))
  calc filter (filter rows p) q = filter (filter rows q) p := filter_comm rows p q
    _ = filter rows q := List.filter_eq_self.mpr hkept

/-- **Narrowing**: it does not matter whether rows are sorted or narrowed first, nor which of two
patterns narrows them first. What is left are the rows that bear the pattern, as they stood, and no
other list; without a pattern all are left. A pattern inside of another one narrows no further than
that other one does. -/
theorem narrowed_in_any_turn (rows : List Row) (mode : SortMode) (p q : Text) :
    filter (sort rows mode) p = sort (filter rows p) mode ∧
      filter (filter rows p) q = filter (filter rows q) p ∧
      (∀ ys, Narrows p rows ys ↔ ys = filter rows p) ∧
      filter rows [] = rows ∧
      (p <:+: q → filter (filter rows p) q = filter rows q ∧
        (filter rows q).Sublist (filter rows p)) := by
  refine ⟨filter_sort rows mode p, filter_comm rows p q, fun ys => narrows_iff,
    filter_nil_pattern rows, fun h => ?_⟩
  have hnarrow := filter_filter_of_part h rows
  refine ⟨hnarrow, ?_⟩
  rw [← hnarrow]
  exact List.filter_sublist

/-- Three containers by name: the two whose name has `xy` in it, of the three that have `x`. -/
theorem narrowed_in_any_turn_of_three :
    let row (name : String) : Row :=
      { container := {}, fields := NameMap.ofList [("NAMES".toList, name.toList)] }
    let rows := [row "zx", row "xy", row "axyb"]
    ['x'] <:+: ['x', 'y'] ∧
      (filter (sort rows .byName) ['x', 'y']).map (·.field "NAMES".toList) =
        ["axyb".toList, "xy".toList] ∧
      (sort (filter rows ['x', 'y']) .byName).map (·.field "NAMES".toList) =
        ["axyb".toList, "xy".toList] ∧
      filter (filter rows ['x']) ['x', 'y'] = filter rows ['x', 'y'] ∧
      (filter rows ['x', 'y']).Sublist (filter rows ['x']) := by
  intro row rows
  have hpart : ['x'] <:+: ['x', 'y'] := by decide
  obtain ⟨hturn, -⟩ := narrowed_in_any_turn rows .byName ['x', 'y'] []
  obtain ⟨-, -, -, -, hlonger⟩ := narrowed_in_any_turn rows .byName ['x'] ['x', 'y']
  have hsorted : (filter (sort rows .byName) ['x', 'y']).map (·.field "NAMES".toList) =
      ["axyb".toList, "xy".toList] := by decide
  exact ⟨hpart, hsorted, hturn ▸ hsorted, hlonger hpart⟩

end Rows

end DockConsole
