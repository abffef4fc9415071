import DockConsole.Canvas.Sheets
import DockConsole.Proofs.Canvas.Clipped
import Mathlib.Data.List.Induction

/-!
What stands on sheets, place by place.

A step puts cells at some places of one sheet and leaves all others alone. Replaying the steps at
each place apart gives the sheets back, so what stands at a place is what the last step that reached
it put there. The places are those of the quarter plane.
-/

namespace DockConsole

namespace Canvas

lemma get?_of_not_inside (c : Canvas) {p : Pos} (h : ¬ (0 ≤ p.x ∧ 0 ≤ p.y)) : c.get? p = none := by
  rcases hcell : c.get? p with _ | cell
  · rfl
  · exact absurd (inside_of_get? hcell) h

lemma merge_assoc (c d e : Canvas) : (c.merge d).merge e = c.merge (d.merge e) :=
  ext_get? fun p => by simp only [get?_merge, Option.or_assoc]

lemma empty_merge (c : Canvas) : empty.merge c = c :=
  ext_get? fun p => by rw [get?_merge, get?_empty, Option.or_none]

lemma merge_empty (c : Canvas) : c.merge empty = c :=
  ext_get? fun p => by rw [get?_merge, get?_empty, Option.none_or]

end Canvas

namespace Sheets

open Canvas

/-- What stands at each place of each sheet. -/
abbrev Content := Text → Pos → Option Cell

/-- The sheet that a step draws on. -/
def Step.sheet : Step → Text
  | .set sheet .. | .write sheet .. | .fill sheet .. | .merge sheet _ => sheet

/-- What a step puts at a place of its sheet, if anything: the character of a text that comes to
stand there, a blank, or what another sheet has there. -/
def Step.puts (before : Content) (p : Pos) : Step → Option Cell
  | .set _ q cell => if p = q then some cell else none
  | .write _ x y text style limit =>
    if p.y = y ∧ x ≤ p.x ∧ ∀ width ∈ limit, p.x - x < max 0 width then
      text[(p.x - x).toNat]?.map fun ch => ⟨[ch], style⟩
    else none
  | .fill _ x y width style =>
    if p.y = y ∧ x ≤ p.x ∧ p.x - x < max 0 width then some ⟨[' '], style⟩ else none
  | .merge _ other => before other p

/-- On the quarter plane of its sheet, what a step puts stands over what was there. -/
def Step.over (before : Content) (step : Step) : Content := fun name p =>
  if name = step.sheet ∧ 0 ≤ p.x ∧ 0 ≤ p.y then (step.puts before p).or (before name p)
  else before name p

/-- The steps replayed at each place apart, from nothing. -/
def replay (steps : List Step) : Content := steps.foldl Step.over fun _ _ => none

/-- The step after the first `k` puts the cell there. -/
def PutsAt (steps : List Step) (name : Text) (p : Pos) (k : ℕ) (cell : Cell) : Prop :=
  ∃ step, steps[k]? = some step ∧ step.sheet = name ∧
    step.puts (replay (steps.take k)) p = some cell

/-- The cell was put there by a step, and nothing by any later one. -/
def PutLast (steps : List Step) (name : Text) (p : Pos) (cell : Cell) : Prop :=
  ∃ k, PutsAt steps name p k cell ∧ ∀ j d, k < j → ¬ PutsAt steps name p j d

/-! ### Steps at a place -/

def content (s : Sheets) : Content := fun name => (canvas s name).get?

variable {s : Sheets} {step : Step} {name : Text} {p : Pos}

lemma canvas_step_of_ne (hname : name ≠ step.sheet) :
    canvas (s.step step) name = canvas s name := by
  cases step with
  | merge sheet other =>
    rw [Sheets.step, canvas_put, canvas_mention, canvas_mention]
    exact if_neg hname
  | set | write | fill =>
    rw [Sheets.step, canvas_put]
    exact if_neg hname

lemma get?_canvas_step (hp : 0 ≤ p.x ∧ 0 ≤ p.y) :
    (canvas (s.step step) step.sheet).get? p =
      (step.puts (content s) p).or ((canvas s step.sheet).get? p) := by
  cases step with
  | set sheet q cell =>
    rw [Sheets.step, Step.sheet, canvas_put, if_pos rfl, get?_set, Step.puts]
    by_cases hq : p = q
    · rw [if_pos ⟨hq, hq ▸ hp⟩, if_pos hq, Option.some_or]
    · rw [if_neg fun h => hq h.1, if_neg hq, Option.none_or]
  | write sheet x y text style limit =>
    rw [Sheets.step, Step.sheet, canvas_put, if_pos rfl, get?_write, Step.puts]
    by_cases hline : p.y = y ∧ x ≤ p.x
    · rw [if_pos ⟨hline.1, hline.2, hp⟩, getElem?_clip_limit,
        Int.toNat_of_nonneg (Int.sub_nonneg_of_le hline.2)]
      by_cases hlimit : ∀ width ∈ limit, p.x - x < max 0 width
      · rw [if_pos hlimit, if_pos ⟨hline.1, hline.2, hlimit⟩]
      · rw [if_neg hlimit, if_neg fun h => hlimit h.2.2, Option.map_none]
    · rw [if_neg fun h => hline ⟨h.1, h.2.1⟩, if_neg fun h => hline ⟨h.1, h.2.1⟩, Option.none_or]
  | fill sheet x y width style =>
    rw [Sheets.step, Step.sheet, canvas_put, if_pos rfl, get?_fill, Step.puts]
    by_cases hline : p.y = y ∧ x ≤ p.x ∧ p.x - x < max 0 width
    · rw [if_pos ⟨hline.1, hline.2.1, by omega, hp⟩, if_pos hline, Option.some_or]
    · rw [if_neg (by omega), if_neg hline, Option.none_or]
  | merge sheet other =>
    rw [Sheets.step, Step.sheet, canvas_put, if_pos rfl, get?_merge]
    rfl

/-- A step does at each place what replaying it there says. -/
lemma content_step (s : Sheets) (step : Step) : content (s.step step) = step.over (content s) := by
  funext name p
  rw [Step.over]
  split
  · next h =>
    obtain ⟨rfl, hp⟩ := h
    exact get?_canvas_step hp
  · next h =>
    simp only [content]
    by_cases hname : name = step.sheet
    · have hout : ¬ (0 ≤ p.x ∧ 0 ≤ p.y) := fun hp => h ⟨hname, hp⟩
      rw [get?_of_not_inside _ hout, get?_of_not_inside _ hout]
    · rw [canvas_step_of_ne hname]

lemma content_run (s : Sheets) (steps : List Step) :
    content (s.run steps) = steps.foldl Step.over (content s) := by
  induction steps generalizing s with
  | nil => rfl
  | cons step steps ih =>
    rw [List.foldl_cons, ← content_step]
    exact ih (s.step step)

lemma content_run_empty (steps : List Step) : content (run .empty steps) = replay steps :=
  content_run .empty steps

/-! ### The last step at a place -/

lemma replay_concat (steps : List Step) (step : Step) :
    replay (steps ++ [step]) = step.over (replay steps) := by
  rw [replay, List.foldl_append]
  rfl

lemma PutsAt.lt {steps : List Step} {k : ℕ} {cell : Cell} (h : PutsAt steps name p k cell) :
    k < steps.length := by
  obtain ⟨step, hk, -⟩ := h
  exact (List.getElem?_eq_some_iff.mp hk).1

lemma putsAt_concat {steps : List Step} {k : ℕ} {cell : Cell} :
    PutsAt (steps ++ [step]) name p k cell ↔
      PutsAt steps name p k cell ∨
        k = steps.length ∧ step.sheet = name ∧ step.puts (replay steps) p = some cell := by
  constructor
  · rintro ⟨found, hk, hsheet, hputs⟩
    rcases Nat.lt_or_ge k steps.length with hlt | hge
    · rw [List.getElem?_append_left hlt] at hk
      rw [List.take_append_of_le_length (Nat.le_of_lt hlt)] at hputs
      exact .inl ⟨found, hk, hsheet, hputs⟩
    · obtain ⟨hlength, -⟩ := List.getElem?_eq_some_iff.mp hk
      rw [List.length_append, List.length_singleton] at hlength
      obtain rfl : k = steps.length := by omega
      rw [List.getElem?_concat_length] at hk
      obtain rfl := Option.some.inj hk
      rw [List.take_left] at hputs
      exact .inr ⟨rfl, hsheet, hputs⟩
  · rintro (h | ⟨rfl, hsheet, hputs⟩)
    · have hlt := h.lt
      obtain ⟨found, hk, hsheet, hputs⟩ := h
      refine ⟨found, ?_, hsheet, ?_⟩
      · rw [List.getElem?_append_left hlt, hk]
      · rw [List.take_append_of_le_length (Nat.le_of_lt hlt), hputs]
    · exact ⟨step, List.getElem?_concat_length, hsheet, by rw [List.take_left, hputs]⟩

/-- One step more: it puts the cell there, or it leaves the place alone. -/
lemma putLast_concat {steps : List Step} {cell : Cell} :
    PutLast (steps ++ [step]) name p cell ↔
      (step.sheet = name ∧ step.puts (replay steps) p = some cell) ∨
        (step.sheet = name → step.puts (replay steps) p = none) ∧ PutLast steps name p cell := by
  constructor
  · rintro ⟨k, hk, hlast⟩
    rcases putsAt_concat.mp hk with hk | ⟨-, hputs⟩
    · refine .inr ⟨fun hsheet => ?_, k, hk, fun j d hj hd => ?_⟩
      · refine Option.eq_none_iff_forall_ne_some.mpr fun d hd => ?_
        exact hlast steps.length d hk.lt (putsAt_concat.mpr (.inr ⟨rfl, hsheet, hd⟩))
      · exact hlast j d hj (putsAt_concat.mpr (.inl hd))
    · exact .inl hputs
  · rintro (hputs | ⟨hnone, k, hk, hlast⟩)
    · refine ⟨steps.length, putsAt_concat.mpr (.inr ⟨rfl, hputs⟩), fun j d hj hd => ?_⟩
      have hlength := hd.lt
      rw [List.length_append, List.length_singleton] at hlength
      omega
    · refine ⟨k, putsAt_concat.mpr (.inl hk), fun j d hj hd => ?_⟩
      rcases putsAt_concat.mp hd with hd | ⟨-, hsheet, hd⟩
      · exact hlast j d hj hd
      · rw [hnone hsheet] at hd
        cases hd

/-- What stands at a place is what was put there last. -/
lemma replay_eq_some_iff (steps : List Step) {cell : Cell} :
    replay steps name p = some cell ↔ (0 ≤ p.x ∧ 0 ≤ p.y) ∧ PutLast steps name p cell := by
  induction steps using List.reverseRecOn with
  | nil =>
    constructor
    · rintro ⟨⟩
    · rintro ⟨-, k, ⟨step, hk, -⟩, -⟩
      cases hk
  | append_singleton steps step ih =>
    rw [replay_concat, putLast_concat, Step.over]
    split
    · next h =>
      obtain ⟨rfl, hp⟩ := h
      rw [Option.or_eq_some_iff, ih]
      simp only [hp, true_and, forall_const]
    · next h =>
      rw [ih]
      refine and_congr_right fun hp => ?_
      have hsheet : step.sheet ≠ name := fun hname => h ⟨hname.symm, hp⟩
      simp only [hsheet, false_and, false_or, IsEmpty.forall_iff, true_and]

/-- **The last writer wins**: however sheets are drawn on, by cells, texts, fills and merges, also of
a sheet into itself, each holds at each place what replaying the steps there leaves. That is, on the
quarter plane, the cell that was put there last, and no other place holds a cell. Merging canvases
is associative, and an empty one adds nothing. -/
theorem last_put_stands (steps : List Step) :
    (∀ name p, (canvas (run .empty steps) name).get? p = replay steps name p) ∧
      (∀ name p cell, (canvas (run .empty steps) name).get? p = some cell ↔
        (0 ≤ p.x ∧ 0 ≤ p.y) ∧ PutLast steps name p cell) ∧
      (∀ c d e : Canvas, (c.merge d).merge e = c.merge (d.merge e)) ∧
      ∀ c : Canvas, Canvas.empty.merge c = c ∧ c.merge .empty = c := by
  have hcontent : ∀ name p, (canvas (run .empty steps) name).get? p = replay steps name p :=
    fun name p => congrFun (congrFun (content_run_empty steps) name) p
  refine ⟨hcontent, fun name p cell => ?_, merge_assoc, fun c => ⟨empty_merge c, merge_empty c⟩⟩
  rw [hcontent, replay_eq_some_iff]

end Sheets

end DockConsole
