import DockConsole.Canvas.Sheets
import DockConsole.Proofs.Canvas.Runs
import Mathlib.Data.List.Chain
import Mathlib.Data.List.Nodup

/-!
A canvas told by its runs.

Spelt out, the runs of a canvas give each of its cells once. They come in reading order, none is
empty, and none goes on where the one before it ends. No other list of runs does all that, so it
does not matter in which order the cells were written.
-/

namespace DockConsole

namespace Canvas

lemma getElem?_spell (y x : Int) (style : Style) (s : Text) (j : ℕ) :
    (spell y x style s)[j]? = s[j]?.map fun ch => (⟨x + j, y⟩, ⟨[ch], style⟩) := by
  induction s generalizing x j with
  | nil => rfl
  | cons ch s ih =>
    cases j with
    | zero => simp [spell]
    | succ j =>
      have hat : x + 1 + j = x + (j + 1 : ℕ) := by omega
      rw [spell, List.getElem?_cons_succ, List.getElem?_cons_succ, ih, hat]

namespace Run

variable {r s : Run}

lemma mem_cells {p : Pos} {cell : Cell} :
    (p, cell) ∈ r.cells ↔
      ∃ (j : ℕ) (ch : Char),
        r.text[j]? = some ch ∧ p = ⟨r.x + j, r.y⟩ ∧ cell = ⟨[ch], r.style⟩ := by
  simp only [cells, List.mem_iff_getElem?, getElem?_spell, Option.map_eq_some_iff, Prod.mk.injEq]
  constructor
  · rintro ⟨j, ch, hch, rfl, rfl⟩
    exact ⟨j, ch, hch, rfl, rfl⟩
  · rintro ⟨j, ch, hch, rfl, rfl⟩
    exact ⟨j, ch, hch, rfl, rfl⟩

/-- The cells of a run are the columns from its start to before its end. -/
lemma exists_mem_cells {p : Pos} :
    (∃ cell, (p, cell) ∈ r.cells) ↔ p.y = r.y ∧ r.x ≤ p.x ∧ p.x < r.x + r.text.length := by
  simp only [mem_cells]
  constructor
  · rintro ⟨cell, j, ch, hch, rfl, -⟩
    obtain ⟨hj, -⟩ := List.getElem?_eq_some_iff.mp hch
    simp only [true_and]
    omega
  · rintro ⟨hy, hleft, hright⟩
    have hj : (p.x - r.x).toNat < r.text.length := by omega
    refine ⟨_, _, _, List.getElem?_eq_getElem hj, ?_, rfl⟩
    rw [Pos.mk.injEq]
    omega

/-- All of `r` comes before all of `s` in reading order. -/
def Before (r s : Run) : Prop := r.y < s.y ∨ r.y = s.y ∧ r.x + r.text.length ≤ s.x

/-- `s` goes on where `r` ends, in its style. -/
def Joins (r s : Run) : Prop := r.y = s.y ∧ r.x + r.text.length = s.x ∧ r.style = s.style

instance : Decidable (r.Joins s) :=
  inferInstanceAs (Decidable (r.y = s.y ∧ r.x + r.text.length = s.x ∧ r.style = s.style))

lemma joins_cons {y x : Int} {ch : Char} {text : Text} {style : Style} :
    Joins ⟨y, x, ch :: text, style⟩ s ↔ Joins ⟨y, x + 1, text, style⟩ s := by
  simp only [Joins, List.length_cons]
  constructor <;> rintro ⟨hy, hx, hstyle⟩ <;> exact ⟨hy, by omega, hstyle⟩

lemma Before.cells (h : r.Before s) :
    ∀ e ∈ r.cells, ∀ f ∈ s.cells, e.1.y < f.1.y ∨ e.1.y = f.1.y ∧ e.1.x < f.1.x := by
  intro e he f hf
  have he := exists_mem_cells.mp ⟨e.2, he⟩
  have hf := exists_mem_cells.mp ⟨f.2, hf⟩
  unfold Before at h
  omega

lemma before_of_cells (hr : r.text ≠ []) (hs : s.text ≠ [])
    (h : ∀ e ∈ r.cells, ∀ f ∈ s.cells, e.1.y < f.1.y ∨ e.1.y = f.1.y ∧ e.1.x < f.1.x) :
    r.Before s := by
  rw [← List.length_pos_iff] at hr hs
  -- the last cell of the one and the first of the other
  obtain ⟨c, hc⟩ : ∃ cell, (⟨r.x + (r.text.length - 1), r.y⟩, cell) ∈ r.cells :=
    exists_mem_cells.mpr ⟨rfl, by simp only; omega, by simp only; omega⟩
  obtain ⟨d, hd⟩ : ∃ cell, (⟨s.x, s.y⟩, cell) ∈ s.cells :=
    exists_mem_cells.mpr ⟨rfl, by simp only; omega, by simp only; omega⟩
  have := h _ hc _ hd
  simp only at this
  unfold Before
  omega

lemma pairwise_cells (r : Run) :
    r.cells.Pairwise fun e f => e.1.y < f.1.y ∨ e.1.y = f.1.y ∧ e.1.x < f.1.x := by
  rw [List.pairwise_iff_getElem]
  intro i j hi hj hlt
  have hat : ∀ (k : ℕ) (hk : k < r.cells.length), r.cells[k].1 = ⟨r.x + k, r.y⟩ := by
    intro k hk
    have hget : (spell r.y r.x r.style r.text)[k]? = some r.cells[k] :=
      List.getElem?_eq_getElem hk
    rw [getElem?_spell, Option.map_eq_some_iff] at hget
    obtain ⟨ch, -, heq⟩ := hget
    exact congrArg Prod.fst heq.symm
  rw [hat i hi, hat j hj]
  exact .inr ⟨rfl, by simp only; omega⟩

end Run

/-! ### Runs that cannot be joined -/

/-- No run is empty or goes on where the one before it ends. -/
structure Maximal (rs : List Run) : Prop where
  ne_nil : ∀ r ∈ rs, r.text ≠ []
  apart : rs.IsChain fun r s => ¬ r.Joins s

lemma addRun_cons {e : Pos × Cell} {ch : Char} (he : e.2.glyph = [ch]) (r : Run) (rs : List Run) :
    addRun e (r :: rs) =
      if Run.Joins ⟨e.1.y, e.1.x, [ch], e.2.style⟩ r then
        ⟨e.1.y, e.1.x, ch :: r.text, r.style⟩ :: rs
      else ⟨e.1.y, e.1.x, [ch], e.2.style⟩ :: r :: rs := by
  have hiff : Run.Joins ⟨e.1.y, e.1.x, [ch], e.2.style⟩ r ↔
      r.y = e.1.y ∧ r.x = e.1.x + 1 ∧ r.style = e.2.style := by
    unfold Run.Joins
    simp only [List.length_singleton]
    constructor <;> rintro ⟨hy, hx, hstyle⟩ <;> exact ⟨hy.symm, by omega, hstyle.symm⟩
  rw [addRun, he]
  simp only [hiff]
  rfl

/-- A cell put in front joins the first run if it can. -/
lemma Maximal.addRun {rs : List Run} (h : Maximal rs) {e : Pos × Cell} {ch : Char}
    (he : e.2.glyph = [ch]) : Maximal (addRun e rs) := by
  obtain ⟨hne, hapart⟩ := h
  cases rs with
  | nil =>
    refine ⟨fun r hr => ?_, .singleton _⟩
    rw [Canvas.addRun, he, List.mem_singleton] at hr
    rw [hr]
    exact List.cons_ne_nil ch []
  | cons r rs =>
    rw [addRun_cons he]
    split
    · next hjoins =>
      refine ⟨fun s hs => ?_, ?_⟩
      · rcases List.mem_cons.mp hs with rfl | hs
        · exact List.cons_ne_nil ch r.text
        · exact hne s (List.mem_cons_of_mem r hs)
      · obtain ⟨y, x, text, style⟩ := r
        obtain ⟨rfl, rfl, -⟩ := hjoins
        -- the longer run ends where the first did
        exact hapart.imp_head (mt Run.joins_cons.mp)
    · next hjoins =>
      refine ⟨fun s hs => ?_, .cons_cons hjoins hapart⟩
      rcases List.mem_cons.mp hs with rfl | hs
      · exact List.cons_ne_nil ch []
      · exact hne s hs

variable {c d : Canvas}

lemma Single.maximal_runs (h : c.Single) : Maximal c.runs := by
  have hsingle := h.exists_glyph
  rw [runs]
  generalize c.cells = es at hsingle
  induction es with
  | nil => exact ⟨fun r hr => (by cases hr), .nil⟩
  | cons e es ih =>
    obtain ⟨ch, hch⟩ := hsingle e List.mem_cons_self
    exact (ih fun f hf => hsingle f (List.mem_cons_of_mem e hf)).addRun hch

/-- Spelt out cell by cell, a run that does not go on where it ends comes out as it was. -/
lemma foldr_addRun_cells {r : Run} {rs : List Run} (hne : r.text ≠ [])
    (hapart : (r :: rs).IsChain fun r s => ¬ r.Joins s) : r.cells.foldr addRun rs = r :: rs := by
  obtain ⟨y, x, text, style⟩ := r
  rw [Run.cells]
  induction text generalizing x with
  | nil => exact absurd rfl hne
  | cons ch text ih =>
    rw [spell, List.foldr_cons]
    cases text with
    | nil =>
      cases rs with
      | nil => rfl
      | cons s rs =>
        rw [spell, List.foldr_nil, addRun_cons rfl]
        exact if_neg (List.isChain_cons_cons.mp hapart).1
    | cons ch' text =>
      have hrest : (Run.mk y (x + 1) (ch' :: text) style :: rs).IsChain fun r s => ¬ r.Joins s :=
        hapart.imp_head (mt Run.joins_cons.mpr)
      rw [ih (x + 1) (List.cons_ne_nil _ _) hrest, addRun_cons rfl]
      exact if_pos ⟨rfl, rfl, rfl⟩

lemma Maximal.foldr_addRun {rs : List Run} (h : Maximal rs) :
    (rs.flatMap Run.cells).foldr Canvas.addRun [] = rs := by
  obtain ⟨hne, hapart⟩ := h
  induction rs with
  | nil => rfl
  | cons r rs ih =>
    rw [List.flatMap_cons, List.foldr_append,
      ih (fun s hs => hne s (List.mem_cons_of_mem r hs)) hapart.tail,
      foldr_addRun_cells (hne r List.mem_cons_self) hapart]

/-! ### Telling a canvas -/

/-- The runs tell the canvas: each of its cells once, in reading order, in as few runs as there can
be. -/
structure Tells (c : Canvas) (rs : List Run) : Prop where
  once : ((rs.flatMap Run.cells).map (·.1)).Nodup
  mem_iff : ∀ p cell, (p, cell) ∈ rs.flatMap Run.cells ↔ c.get? p = some cell
  ordered : rs.Pairwise fun r s => r.y < s.y ∨ r.y = s.y ∧ r.x < s.x
  ne_nil : ∀ r ∈ rs, r.text ≠ []
  /-- Two runs that follow one another on a line have a free column between them or differ in
  style. -/
  apart : ∀ before r s after, rs = before ++ r :: s :: after → r.y = s.y →
    (∃ x : Int, r.x + r.text.length ≤ x ∧ x < s.x ∧ c.get? ⟨x, r.y⟩ = none) ∨ r.style ≠ s.style

/-- Runs that tell a canvas do not overlap. -/
lemma Tells.before {rs : List Run} (h : c.Tells rs) : rs.Pairwise Run.Before := by
  have hdisjoint : rs.Pairwise fun r s => ∀ e ∈ r.cells, ∀ f ∈ s.cells, e.1 ≠ f.1 := by
    have hnodup := h.once
    rw [List.Nodup, List.pairwise_map, List.pairwise_flatMap] at hnodup
    exact hnodup.2
  refine (h.ordered.and hdisjoint).imp_of_mem fun {r s} hr hs => ?_
  rintro ⟨hlt, hne⟩
  have hlength := List.length_pos_iff.mpr (h.ne_nil s hs)
  rcases hlt with hy | ⟨hy, hx⟩
  · exact .inl hy
  · refine .inr ⟨hy, ?_⟩
    -- the first cell of the later run is not in the earlier one
    by_contra hover
    obtain ⟨d, hd⟩ : ∃ cell, (⟨s.x, s.y⟩, cell) ∈ s.cells :=
      Run.exists_mem_cells.mpr ⟨rfl, Int.le_refl _, by simp only; omega⟩
    obtain ⟨e, he⟩ : ∃ cell, (⟨s.x, s.y⟩, cell) ∈ r.cells :=
      Run.exists_mem_cells.mpr ⟨hy.symm, by simp only; omega, by simp only; omega⟩
    exact hne _ he _ hd rfl

lemma Tells.flatMap_cells {rs : List Run} (h : c.Tells rs) : rs.flatMap Run.cells = c.cells := by
  have hordered : (rs.flatMap Run.cells).Pairwise fun e f =>
      e.1.y < f.1.y ∨ e.1.y = f.1.y ∧ e.1.x < f.1.x := by
    rw [List.pairwise_flatMap]
    exact ⟨fun r _ => r.pairwise_cells, h.before.imp Run.Before.cells⟩
  have hperm : (rs.flatMap Run.cells).Perm c.cells := by
    refine (List.perm_ext_iff_of_nodup h.once.of_map c.nodup_cells.of_map).mpr fun e => ?_
    rw [h.mem_iff e.1 e.2, ← mem_cells]
  refine hperm.eq_of_pairwise (fun e f _ _ hef hfe => ?_) hordered c.cells_ordered
  omega

lemma Tells.maximal {rs : List Run} (h : c.Tells rs) : Maximal rs := by
  refine ⟨h.ne_nil, List.isChain_iff_forall_rel_of_append_cons_cons.mpr ?_⟩
  rintro r s before after hrs ⟨hy, hx, hstyle⟩
  rcases h.apart before r s after hrs hy with ⟨x, hleft, hright, -⟩ | hne
  · omega
  · exact hne hstyle

lemma Tells.eq_runs {rs : List Run} (h : c.Tells rs) : rs = c.runs := by
  rw [runs, ← h.flatMap_cells, h.maximal.foldr_addRun]

lemma Single.before_runs (h : c.Single) : c.runs.Pairwise Run.Before := by
  have hordered := c.cells_ordered
  rw [← flatMap_cells_runs h, List.pairwise_flatMap] at hordered
  exact hordered.2.imp_of_mem fun hr hs =>
    Run.before_of_cells (h.maximal_runs.ne_nil _ hr) (h.maximal_runs.ne_nil _ hs)

/-- Between two runs of a line no column is written. -/
lemma Single.get?_between (h : c.Single) {before after : List Run} {r s : Run}
    (hrs : c.runs = before ++ r :: s :: after) {p : Pos} (hr : p.y = r.y) (hs : p.y = s.y)
    (hleft : r.x + r.text.length ≤ p.x) (hright : p.x < s.x) : c.get? p = none := by
  rw [Option.eq_none_iff_forall_ne_some]
  intro cell hcell
  rw [← mem_cells, ← flatMap_cells_runs h, List.mem_flatMap] at hcell
  obtain ⟨t, ht, hcell⟩ := hcell
  obtain ⟨hty, htleft, htright⟩ := Run.exists_mem_cells.mp ⟨cell, hcell⟩
  have hordered := h.before_runs
  rw [hrs] at ht hordered
  obtain ⟨-, hrest, hearlier⟩ := List.pairwise_append.mp hordered
  obtain ⟨-, hrest⟩ := List.pairwise_cons.mp hrest
  obtain ⟨hlater, -⟩ := List.pairwise_cons.mp hrest
  rcases List.mem_append.mp ht with ht | ht
  · have := hearlier t ht r List.mem_cons_self
    unfold Run.Before at this
    omega
  · rcases List.mem_cons.mp ht with rfl | ht
    · omega
    · rcases List.mem_cons.mp ht with rfl | ht
      · omega
      · have := hlater t ht
        unfold Run.Before at this
        omega

lemma Single.tells_runs (h : c.Single) : c.Tells c.runs where
  once := by
    rw [flatMap_cells_runs h]
    exact c.nodup_cells
  mem_iff p cell := by rw [flatMap_cells_runs h, mem_cells]
  ordered := h.before_runs.imp_of_mem fun {r s} hr _ hbefore => by
    have := List.length_pos_iff.mpr (h.maximal_runs.ne_nil r hr)
    unfold Run.Before at hbefore
    omega
  ne_nil := h.maximal_runs.ne_nil
  apart before r s after hrs hy := by
    by_contra hjoined
    rw [not_or, not_exists, not_not] at hjoined
    obtain ⟨hfull, hstyle⟩ := hjoined
    have hordered := h.before_runs
    rw [hrs] at hordered
    have hbefore := (List.pairwise_cons.mp (List.pairwise_append.mp hordered).2.1).1 s
      List.mem_cons_self
    have happ := List.isChain_iff_forall_rel_of_append_cons_cons.mp h.maximal_runs.apart hrs
    have hne : r.x + r.text.length ≠ s.x := fun hx => happ ⟨hy, hx, hstyle⟩
    have hgap : r.x + r.text.length < s.x := by
      unfold Run.Before at hbefore
      omega
    exact hfull _ ⟨Int.le_refl _, hgap, h.get?_between hrs rfl hy (Int.le_refl _) hgap⟩

end Canvas

/-! ### Canvases drawn step by step -/

namespace Sheets

open Canvas

/-- The step puts one character into a cell. -/
def Step.Single : Step → Prop
  | .set _ _ cell => ∃ ch, cell.glyph = [ch]
  | _ => True

lemma single_step {s : Sheets} {step : Step} (hs : ∀ name, (canvas s name).Single)
    (hstep : step.Single) : ∀ name, (canvas (s.step step) name).Single := by
  intro name
  cases step with
  | set sheet p cell =>
    rw [Sheets.step, canvas_put]
    split
    · exact (hs sheet).set p hstep
    · exact hs name
  | write sheet x y text style limit =>
    rw [Sheets.step, canvas_put]
    split
    · exact (hs sheet).write x y style _
    · exact hs name
  | fill sheet x y width style =>
    rw [Sheets.step, canvas_put]
    split
    · exact (hs sheet).fill x y width style
    · exact hs name
  | merge sheet other =>
    rw [Sheets.step, canvas_put, canvas_mention, canvas_mention]
    split
    · exact (hs sheet).merge (hs other)
    · exact hs name

lemma single_run {s : Sheets} (hs : ∀ name, (canvas s name).Single) {steps : List Step}
    (hsteps : ∀ step ∈ steps, step.Single) : ∀ name, (canvas (s.run steps) name).Single := by
  induction steps generalizing s with
  | nil => exact hs
  | cons step steps ih =>
    exact ih (single_step hs (hsteps step List.mem_cons_self)) fun t ht =>
      hsteps t (List.mem_cons_of_mem step ht)

/-- **Runs tell the canvas**: however canvases are drawn on, by cells of one character, texts, fills
and merges, spelling out the runs of one gives each of its cells once. The runs come in reading
order, none is empty, and two that follow one another on a line have a free column between them or
differ in style. They are the only runs that tell the canvas, and canvases with the same cells have
the same runs, bounds and lines, whatever was done to get there. -/
theorem runs_tell_canvas (steps : List Step) (hsteps : ∀ step ∈ steps, step.Single) (name : Text) :
    let c := canvas (run .empty steps) name
    c.Tells c.runs ∧ (∀ rs, c.Tells rs → rs = c.runs) ∧
      ∀ (others : List Step) (other : Text),
        let d := canvas (run .empty others) other
        (∀ p, d.get? p = c.get? p) →
          d.runs = c.runs ∧ d.bounds = c.bounds ∧ ∀ y, d.line y = c.line y := by
  intro c
  have hempty : ∀ name, (canvas .empty name).Single := fun _ => single_empty
  have hsingle : c.Single := single_run hempty hsteps name
  refine ⟨hsingle.tells_runs, fun rs h => h.eq_runs, ?_⟩
  intro others other d hd
  have heq : d = c := ext_get? hd
  rw [heq]
  exact ⟨rfl, rfl, fun _ => rfl⟩

/-- A text, and from another canvas blanks that start left of the screen with a cell after them: two
runs of one style, a free column apart. -/
theorem runs_tell_canvas_merged :
    let steps : List Step := [.write ['a'] 3 0 "de".toList .title none,
      .set ['b'] ⟨1, 0⟩ ⟨['x'], .title⟩, .fill ['b'] (-1) 0 2 .title, .merge ['a'] ['b']]
    let c := canvas (run .empty steps) ['a']
    (∀ step ∈ steps, step.Single) ∧
      c.runs = [⟨0, 0, " x".toList, .title⟩, ⟨0, 3, "de".toList, .title⟩] ∧
      (⟨4, 0⟩, ⟨['e'], .title⟩) ∈ c.runs.flatMap Run.cells ∧
      ∃ x : Int, 0 + 2 ≤ x ∧ x < 3 ∧ c.get? ⟨x, 0⟩ = none := by
  intro steps c
  have hsteps : ∀ step ∈ steps, step.Single := by simp [steps, Step.Single]
  have hruns : c.runs = [⟨0, 0, " x".toList, .title⟩, ⟨0, 3, "de".toList, .title⟩] := by
    decide +kernel
  obtain ⟨htells, -, -⟩ := runs_tell_canvas steps hsteps ['a']
  exact ⟨hsteps, hruns, (htells.mem_iff _ _).mpr (by decide +kernel),
    (htells.apart [] _ _ [] hruns rfl).resolve_right fun hne => hne rfl⟩

end Sheets

end DockConsole
