import DockConsole.Canvas.Sheets
import DockConsole.Proofs.Canvas.Decoding

/-!
Lines and bounds, read off the runs.

A line has each of its runs in the columns of the run, blanks between them, and ends with the last.
The bounds reach from the leftmost start of a run to the rightmost end, and from the line of the
first run to that of the last.
-/

namespace DockConsole

namespace Canvas

/-- The column behind the last one of the run. -/
def Run.stop (r : Run) : Int := r.x + r.text.length

/-- From column `x` on, the text has each run in its columns and blanks beside them, and ends with
the last run. -/
structure Prints (x : Int) (rs : List Run) (s : Text) : Prop where
  text : ∀ r ∈ rs, x ≤ r.x ∧ (s.drop (r.x - x).toNat).take r.text.length = r.text
  blank : ∀ k < s.length, (∀ r ∈ rs, ¬ (r.x ≤ x + k ∧ x + k < r.stop)) → s[k]? = some ' '
  length : x + s.length = (rs.getLast?.map Run.stop).getD x

/-! ### Lines -/

variable {c : Canvas} {r : Run} {rs : List Run} {x : Int} {s : Text}

lemma prints_nil (x : Int) : Prints x [] [] where
  text r hr := by cases hr
  blank k hk := by cases hk
  length := Int.add_zero x

/-- A run and the blanks up to it, in front of what is printed behind it. -/
lemma Prints.cons (h : Prints r.stop rs s) (hx : x ≤ r.x) :
    Prints x (r :: rs) (List.replicate (r.x - x).toNat ' ' ++ r.text ++ s) := by
  obtain ⟨n, hn⟩ : ∃ n, (r.x - x).toNat = n := ⟨_, rfl⟩
  rw [hn]
  have hstop : r.stop = x + n + r.text.length := by
    rw [Run.stop]
    omega
  refine ⟨fun t ht => ?_, fun k hk hfree => ?_, ?_⟩
  · rcases List.mem_cons.mp ht with rfl | ht
    · refine ⟨hx, ?_⟩
      rw [hn, List.append_assoc, List.drop_left' List.length_replicate, List.take_left' rfl]
    · obtain ⟨hstart, htext⟩ := h.text t ht
      have hat : (t.x - x).toNat = n + r.text.length + (t.x - r.stop).toNat := by omega
      refine ⟨by omega, ?_⟩
      rw [hat, ← List.drop_drop, List.drop_left' (by simp), htext]
  · have hfirst := hfree r List.mem_cons_self
    rcases Nat.lt_or_ge k n with hlt | hge
    · rw [List.append_assoc, List.getElem?_append_left (by simpa using hlt),
        List.getElem?_replicate, if_pos hlt]
    · -- not in the columns of the run, so behind it
      obtain ⟨j, rfl⟩ : ∃ j, k = n + r.text.length + j :=
        ⟨k - (n + r.text.length), by omega⟩
      rw [List.length_append, List.length_append, List.length_replicate] at hk
      rw [List.getElem?_append_right (by simp), List.length_append, List.length_replicate,
        Nat.add_sub_cancel_left]
      refine h.blank j (by omega) fun t ht hcovers => ?_
      exact hfree t (List.mem_cons_of_mem r ht) (by omega)
  · have hrest := h.length
    simp only [List.length_append, List.length_replicate, List.getLast?_cons, Option.map_some,
      Option.getD_some]
    cases hlast : rs.getLast? with
    | none =>
      rw [hlast] at hrest
      simp only [Option.map_none, Option.getD_none] at hrest ⊢
      omega
    | some t =>
      rw [hlast] at hrest
      simp only [Option.map_some, Option.getD_some] at hrest ⊢
      omega

/-- The cells of a run come out as its text, behind blanks up to where it starts. -/
lemma spaced_cells_append (hne : r.text ≠ []) (x : Int) (es : List (Pos × Cell)) :
    spaced x (r.cells ++ es) =
      List.replicate (r.x - x).toNat ' ' ++ r.text ++ spaced r.stop es := by
  obtain ⟨y, start, text, style⟩ := r
  rw [Run.cells, Run.stop]
  simp only at hne ⊢
  induction text generalizing start x with
  | nil => exact absurd rfl hne
  | cons ch text ih =>
    rw [spell, List.cons_append, spaced]
    cases text with
    | nil => rfl
    | cons ch' text =>
      have hstop : start + 1 + ((ch' :: text).length : Int) =
          start + ((ch :: ch' :: text).length : Int) := by
        simp only [List.length_cons]
        omega
      rw [ih (start + 1) (start + 1) (List.cons_ne_nil _ _), hstop, Int.sub_self]
      simp

lemma prints_spaced (hne : ∀ r ∈ rs, r.text ≠ []) (hx : ∀ r ∈ rs, x ≤ r.x)
    (hrs : rs.Pairwise fun r t => r.stop ≤ t.x) : Prints x rs (spaced x (rs.flatMap Run.cells)) := by
  induction rs generalizing x with
  | nil => exact prints_nil x
  | cons r rs ih =>
    obtain ⟨hlater, hrs⟩ := List.pairwise_cons.mp hrs
    rw [List.flatMap_cons, spaced_cells_append (hne r List.mem_cons_self)]
    exact (ih (fun t ht => hne t (List.mem_cons_of_mem r ht)) hlater hrs).cons
      (hx r List.mem_cons_self)

/-- The cells of a line are those of its runs. -/
lemma Single.filter_cells (h : c.Single) (y : Int) :
    c.cells.filter (·.1.y = y) = (c.runs.filter (·.y = y)).flatMap Run.cells := by
  rw [← flatMap_cells_runs h, List.filter_flatMap]
  generalize c.runs = rs
  induction rs with
  | nil => rfl
  | cons r rs ih =>
    have hline : ∀ e ∈ r.cells, e.1.y = r.y := fun e he => (Run.exists_mem_cells.mp ⟨e.2, he⟩).1
    rw [List.flatMap_cons, ih]
    by_cases hy : r.y = y
    · have hall : ∀ e ∈ r.cells, decide (e.1.y = y) := fun e he =>
        decide_eq_true ((hline e he).trans hy)
      rw [List.filter_eq_self.mpr hall, List.filter_cons_of_pos (by simpa using hy),
        List.flatMap_cons]
    · have hnone : ∀ e ∈ r.cells, ¬ decide (e.1.y = y) := fun e he heq =>
        hy ((hline e he).symm.trans (of_decide_eq_true heq))
      rw [List.filter_eq_nil_iff.mpr hnone, List.filter_cons_of_neg (by simpa using hy)]
      rfl

lemma Single.prints_line (h : c.Single) (y : Int) :
    Prints 0 (c.runs.filter (·.y = y)) (c.line y) := by
  rw [line, h.filter_cells]
  refine prints_spaced (fun r hr => ?_) (fun r hr => ?_) ?_
  · exact h.maximal_runs.ne_nil r (List.mem_of_mem_filter hr)
  · obtain ⟨cell, hcell⟩ := exists_cell_of_mem_runs (List.mem_of_mem_filter hr)
    exact (inside_of_get? hcell).1
  · refine (h.before_runs.filter _).imp_of_mem fun {r t} hr ht hbefore => ?_
    have hr := of_decide_eq_true (List.mem_filter.mp hr).2
    have ht := of_decide_eq_true (List.mem_filter.mp ht).2
    rw [Run.stop]
    unfold Run.Before at hbefore
    omega

/-! ### Bounds -/

/-- Each side of the bounds is the extreme of one coordinate. -/
lemma map_bounds (c : Canvas) {side : Bounds → Int} {coordinate : Pos → Int} {op : Int → Int → Int}
    {extreme : List Int → Option Int} (hnil : extreme [] = none)
    (hcons : ∀ n ns, extreme (n :: ns) = some (ns.foldl op n))
    (hstart : ∀ p : Pos, side ⟨p.x, p.y, p.x, p.y⟩ = coordinate p)
    (haround : ∀ b p, op (side b) (coordinate p) = side (b.around p)) :
    c.bounds.map side = extreme (c.cells.map fun e => coordinate e.1) := by
  rw [bounds]
  split
  · next h =>
    rw [h]
    exact hnil.symm
  · next p cell es h =>
    rw [h, List.map_cons, hcons, List.foldl_map, Option.map_some, ← hstart]
    exact congrArg some (List.foldl_hom side fun b e => haround b e.1).symm

/-- The bounds of written cells: no cell is outside, and each side has one. -/
structure Bounds.Tight (b : Bounds) (es : List (Pos × Cell)) : Prop where
  left : (es.map (·.1.x)).min? = some b.left
  top : (es.map (·.1.y)).min? = some b.top
  right : (es.map (·.1.x)).max? = some b.right
  bottom : (es.map (·.1.y)).max? = some b.bottom

lemma tight_bounds {b : Bounds} (hb : c.bounds = some b) : b.Tight c.cells := by
  have hside {side : Bounds → Int} {extreme : Option Int} (h : c.bounds.map side = extreme) :
      extreme = some (side b) := by
    rw [← h, hb, Option.map_some]
  have hmin : ∀ (n : Int) ns, (n :: ns).min? = some (ns.foldl min n) := fun _ _ => List.min?_cons'
  have hmax : ∀ (n : Int) ns, (n :: ns).max? = some (ns.foldl max n) := fun _ _ => List.max?_cons'
  exact {
    left := hside (c.map_bounds rfl hmin (fun _ => rfl) fun _ _ => rfl)
    top := hside (c.map_bounds rfl hmin (fun _ => rfl) fun _ _ => rfl)
    right := hside (c.map_bounds rfl hmax (fun _ => rfl) fun _ _ => rfl)
    bottom := hside (c.map_bounds rfl hmax (fun _ => rfl) fun _ _ => rfl) }

lemma bounds_eq_none_iff : c.bounds = none ↔ c.cells = [] := by
  rw [bounds]
  split <;> simp [*]

lemma Single.runs_eq_nil_iff (h : c.Single) : c.runs = [] ↔ c.cells = [] := by
  constructor
  · intro hruns
    rw [← flatMap_cells_runs h, hruns]
    rfl
  · intro hcells
    rw [runs, hcells]
    rfl

lemma Single.mem_columns (h : c.Single) {x : Int} :
    x ∈ c.cells.map (·.1.x) ↔ ∃ r ∈ c.runs, r.x ≤ x ∧ x < r.stop := by
  simp only [← flatMap_cells_runs h, List.mem_map, List.mem_flatMap]
  constructor
  · rintro ⟨e, ⟨r, hr, he⟩, rfl⟩
    exact ⟨r, hr, (Run.exists_mem_cells.mp ⟨e.2, he⟩).2⟩
  · rintro ⟨r, hr, hx⟩
    obtain ⟨cell, he⟩ : ∃ cell, (⟨x, r.y⟩, cell) ∈ r.cells := Run.exists_mem_cells.mpr ⟨rfl, hx⟩
    exact ⟨_, ⟨r, hr, he⟩, rfl⟩

lemma Single.start_lt_stop (h : c.Single) (hr : r ∈ c.runs) : r.x < r.stop := by
  have := List.length_pos_iff.mpr (h.maximal_runs.ne_nil r hr)
  rw [Run.stop]
  omega

lemma Single.mem_lines (h : c.Single) {y : Int} :
    y ∈ c.cells.map (·.1.y) ↔ y ∈ c.runs.map (·.y) := by
  simp only [← flatMap_cells_runs h, List.mem_map, List.mem_flatMap]
  constructor
  · rintro ⟨e, ⟨r, hr, he⟩, rfl⟩
    exact ⟨r, hr, (Run.exists_mem_cells.mp ⟨e.2, he⟩).1.symm⟩
  · rintro ⟨r, hr, rfl⟩
    obtain ⟨cell, he⟩ : ∃ cell, (⟨r.x, r.y⟩, cell) ∈ r.cells :=
      Run.exists_mem_cells.mpr ⟨rfl, Int.le_refl _, h.start_lt_stop hr⟩
    exact ⟨_, ⟨r, hr, he⟩, rfl⟩

/-- The bounds of runs: they reach from the leftmost start to the rightmost last column, and from
the line of the first run to that of the last. -/
structure Bounds.Around (b : Bounds) (rs : List Run) : Prop where
  left : (rs.map (·.x)).min? = some b.left
  top : rs.head?.map (·.y) = some b.top
  right : (rs.map fun r => r.stop - 1).max? = some b.right
  bottom : rs.getLast?.map (·.y) = some b.bottom

/-- The lines of runs go down. -/
lemma Single.sorted_lines (h : c.Single) : (c.runs.map (·.y)).Pairwise (· ≤ ·) := by
  rw [List.pairwise_map]
  refine h.before_runs.imp fun {r t} hbefore => ?_
  unfold Run.Before at hbefore
  omega

lemma Single.around_runs (h : c.Single) {b : Bounds} (hb : c.bounds = some b) :
    b.Around c.runs := by
  obtain ⟨hleft, htop, hright, hbottom⟩ := tight_bounds hb
  simp only [List.min?_eq_some_iff, List.max?_eq_some_iff, h.mem_lines] at hleft htop hright hbottom
  obtain ⟨hleft, hle⟩ := hleft
  obtain ⟨hright, hge⟩ := hright
  have hstart : ∀ r ∈ c.runs, b.left ≤ r.x := fun r hr =>
    hle r.x (h.mem_columns.mpr ⟨r, hr, Int.le_refl _, h.start_lt_stop hr⟩)
  have hstop : ∀ r ∈ c.runs, r.stop - 1 ≤ b.right := fun r hr => by
    have := h.start_lt_stop hr
    exact hge _ (h.mem_columns.mpr ⟨r, hr, by omega, by omega⟩)
  refine ⟨?_, ?_, ?_, ?_⟩
  · obtain ⟨r, hr, hx, -⟩ := h.mem_columns.mp hleft
    have hat : r.x = b.left := Int.le_antisymm hx (hstart r hr)
    rw [List.min?_eq_some_iff, List.forall_mem_map]
    exact ⟨List.mem_map.mpr ⟨r, hr, hat⟩, hstart⟩
  · have hmin : (c.runs.map (·.y)).min? = some b.top := List.min?_eq_some_iff.mpr htop
    rwa [List.min?_eq_head? (h.sorted_lines.imp Int.min_eq_left), List.head?_map] at hmin
  · obtain ⟨r, hr, -, hx⟩ := h.mem_columns.mp hright
    have hat : r.stop - 1 = b.right := Int.le_antisymm (hstop r hr) (by omega)
    rw [List.max?_eq_some_iff, List.forall_mem_map]
    exact ⟨List.mem_map.mpr ⟨r, hr, hat⟩, hstop⟩
  · -- from the last run up, the first line is the greatest
    have hmax : (c.runs.map (·.y)).reverse.max? = some b.bottom := by
      rw [List.max?_eq_some_iff]
      simpa only [List.mem_reverse] using hbottom
    have hsorted : (c.runs.map (·.y)).reverse.Pairwise fun y z => max y z = y :=
      List.pairwise_reverse.mpr (h.sorted_lines.imp Int.max_eq_left)
    rwa [List.max?_eq_head? hsorted, List.head?_reverse, List.getLast?_map] at hmax

/-- **Lines and bounds agree with the runs**: where every cell holds one character, each line has the
texts of the runs on it in their columns, blanks beside them, and ends with the last of them. There
are bounds exactly if there are runs, and then they are the leftmost start and the rightmost last
column of a run, and the lines of the first run and the last. -/
theorem read_off_runs (c : Canvas) (h : c.Single) :
    (∀ y, Prints 0 (c.runs.filter (·.y = y)) (c.line y)) ∧ (c.bounds = none ↔ c.runs = []) ∧
      ∀ b, c.bounds = some b → b.Around c.runs :=
  ⟨h.prints_line, bounds_eq_none_iff.trans h.runs_eq_nil_iff.symm, fun _ hb => h.around_runs hb⟩

/-- Texts on two lines, the lower line drawn first. It starts right of the other, has a gap, and a
cell of two characters was written over. -/
theorem read_off_runs_with_gap :
    let steps : List Sheets.Step := [.set ['a'] ⟨4, 2⟩ ⟨"yz".toList, .plain⟩,
      .write ['a'] 1 2 "abc".toList .plain (some 2), .write ['a'] 4 2 "ef".toList .title none,
      .fill ['b'] (-1) 0 2 .title, .merge ['a'] ['b']]
    let c := Sheets.canvas (Sheets.run .empty steps) ['a']
    c.Single ∧
      c.runs = [⟨0, 0, [' '], .title⟩, ⟨2, 1, "ab".toList, .plain⟩, ⟨2, 4, "ef".toList, .title⟩] ∧
      (c.line 2).length = 6 ∧ ((c.line 2).drop 4).take 2 = "ef".toList ∧
      (c.line 2)[3]? = some ' ' ∧ c.line 1 = [] ∧
      ∃ b, c.bounds = some b ∧ b.left = 0 ∧ b.top = 0 := by
  intro steps c
  have hglyphs : ∀ e ∈ c.cells, e.2.glyph.length = 1 := by decide +kernel
  have hsingle : c.Single := fun p cell h => List.length_eq_one_iff.mp (hglyphs _ (mem_cells.mpr h))
  have hruns : c.runs =
      [⟨0, 0, [' '], .title⟩, ⟨2, 1, "ab".toList, .plain⟩, ⟨2, 4, "ef".toList, .title⟩] := by
    decide +kernel
  obtain ⟨hprints, hnone, hbounds⟩ := read_off_runs c hsingle
  rw [hruns] at hprints hnone hbounds
  have hlength : (0 : Int) + (c.line 2).length = 6 := (hprints 2).length
  have habsent : (0 : Int) + (c.line 1).length = 0 := (hprints 1).length
  obtain ⟨b, hb⟩ : ∃ b, c.bounds = some b :=
    Option.ne_none_iff_exists'.mp fun h => List.cons_ne_nil _ _ (hnone.mp h)
  obtain ⟨hleft, htop, -, -⟩ := hbounds b hb
  refine ⟨hsingle, hruns, by omega, ?_, ?_, List.eq_nil_of_length_eq_zero (by omega), b, hb,
    (Option.some.inj hleft).symm, (Option.some.inj htop).symm⟩
  · exact ((hprints 2).text ⟨2, 4, "ef".toList, .title⟩ (by decide)).2
  · exact (hprints 2).blank 3 (by omega) (by decide)

end Canvas

end DockConsole
