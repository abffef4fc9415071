import DockConsole.Proofs.Table.Composition
import DockConsole.Proofs.Table.Conservation
import DockConsole.Proofs.Table.Uses

/-!
How many rows are marked.

Drawing takes the mark from all rows and gives it to the selected one, if any row is shown. Between
two drawings rows lose their marks when they are loaded again, and otherwise keep them. So there is
never more than one mark, and right after a drawing it is on the selected row.
-/

namespace DockConsole.Table

def marked (t : Table) : List Row := t.rows.filter (·.highlighted)

lemma marked_load (t : Table) (containers : List Container) : (t.load containers).marked = [] := by
  refine List.filter_eq_nil_iff.mpr fun r hr => ?_
  obtain ⟨built, hbuilt, rfl⟩ := List.mem_map.mp hr
  obtain ⟨c, -, rfl⟩ := List.mem_map.mp hbuilt
  exact Bool.false_ne_true

lemma length_marked_resize (t : Table) (x y width height : Int) :
    (t.resize x y width height).marked.length = t.marked.length := by
  have hmarked := congrArg List.length (Alike.resize t x y width height).marked
  rwa [List.length_map, List.length_map] at hmarked

/-- The rows marked by a drawing are the one at the selected index, if there is one. -/
lemma marked_render {t : Table} (hmounted : t.mounted) (cursor : Cursor) :
    let u := (t.render cursor).1
    u.marked = u.shown[u.selected]?.toList := by
  have hunmarked : ∀ r ∈ Rows.plain t.sort.rows, r.highlighted = false := fun r hr =>
    Rows.highlighted_of_mem_plain hr
  have hplain : Rows.filter (Rows.plain t.sort.rows) t.pattern = Rows.plain t.sort.shown :=
    filter_plain t.sort
  have hmarked : (t.sort.select cursor).marked =
      (t.sort.shown[t.indexUnder cursor]?.map (Row.mark true)).toList := by
    rw [marked, rows_select_sort, Rows.marked_highlight hunmarked, hplain, Rows.plain,
      List.getElem?_map, Option.map_map]
    rfl
  rw [render_of_mounted hmounted]
  show (t.sort.select cursor).marked =
    (t.sort.select cursor).shown[(t.sort.select cursor).selected]?.toList
  rw [hmarked, selected_select_sort, getElem?_shown_select_sort_eq, decide_eq_true rfl]

namespace Session

variable {s : Session}

lemma length_marked_reload (h : s.table.marked.length ≤ 1) :
    s.reload.session.table.marked.length ≤ 1 := by
  rw [reload]
  split
  · exact h
  · show (s.table.load s.supply).marked.length ≤ 1
    rw [marked_load]
    exact Nat.zero_le 1

lemma length_marked_render (h : s.table.marked.length ≤ 1) :
    s.render.1.table.marked.length ≤ 1 := by
  show (s.table.render s.cursor).1.marked.length ≤ 1
  by_cases hmounted : s.table.mounted
  · rw [marked_render hmounted]
    exact Option.length_toList_le
  · rw [render_of_not_mounted hmounted]
    exact h

lemma length_marked_act (h : s.table.marked.length ≤ 1) (id : Text) (action : Action) :
    (s.act id action).session.table.marked.length ≤ 1 := by
  cases action with
  | render => exact length_marked_render h
  | remount =>
    rw [session_act_remount]
    exact length_marked_reload h
  | _ => exact h

lemma length_marked_step (h : s.table.marked.length ≤ 1) (step : Step) :
    (s.step step).session.table.marked.length ≤ 1 := by
  cases step with
  | mount =>
    rw [Session.step, mount]
    split
    · exact h
    · exact length_marked_reload h
  | remount => exact length_marked_reload h
  | render => exact length_marked_render h
  | resize x y width height => exact (length_marked_resize s.table x y width height).trans_le h
  | dispatch action =>
    rw [Session.step, session_dispatch]
    split
    · exact length_marked_act h _ action
    · exact h
  | _ => exact h

lemma length_marked_run (h : s.table.marked.length ≤ 1) (steps : List Step) :
    (s.run steps).table.marked.length ≤ 1 := by
  induction steps generalizing s with
  | nil => exact h
  | cons step steps ih => exact ih (length_marked_step h step)

/-- The uses lead through this state, be it in the middle of an action. -/
def Passes (s₀ : Session) (uses : List Use) (s : Session) : Prop :=
  ∃ steps, steps <+: s₀.stepsOfAll uses ∧ s₀.run steps = s

lemma stepsOfAll_append (s : Session) (xs ys : List Use) :
    s.stepsOfAll (xs ++ ys) = s.stepsOfAll xs ++ (s.useAll xs).stepsOfAll ys := by
  induction xs generalizing s with
  | nil => rfl
  | cons x xs ih =>
    rw [List.cons_append, stepsOfAll, stepsOfAll, useAll, ih, List.append_assoc]

/-- Between two uses the state is that after the first of them. -/
lemma passes_useAll (s₀ : Session) (xs ys : List Use) : s₀.Passes (xs ++ ys) (s₀.useAll xs) := by
  refine ⟨s₀.stepsOfAll xs, ?_, (useAll_eq_run s₀ xs).symm⟩
  rw [stepsOfAll_append]
  exact List.prefix_append _ _

end Session

/-- **One mark**: whatever a table is used for, in every state on the way at most one row is marked.
Right after a drawing the marked row is the one at the selected index among those that the filter
lets through, and none is if it lets none through. -/
theorem one_marked_at_most (s₀ : Session) (hfresh : s₀.Fresh) (uses : List Use) {s : Session}
    (hs : s₀.Passes uses s) :
    s.table.marked.length ≤ 1 ∧
      ∀ step, s.Draws step →
        let t := (s.step step).session.table
        (t.shown ≠ [] → ∃ r, t.marked = [r] ∧ t.shown[t.selected]? = some r ∧
          t.pattern <:+: r.field "NAMES".toList) ∧
        (t.shown = [] → t.marked = []) := by
  obtain ⟨steps, -, rfl⟩ := hs
  have hunmarked : s₀.table.marked = [] := by rw [marked, hfresh.rows]; rfl
  refine ⟨Session.length_marked_run (by rw [hunmarked]; exact Nat.zero_le 1) steps, ?_⟩
  intro step hdraws t
  have ht : t = ((s₀.run steps).table.render (s₀.run steps).cursor).1 := hdraws.table_eq
  have hmarked : t.marked = t.shown[t.selected]?.toList := by
    rw [ht]
    exact marked_render hdraws.mounted _
  constructor
  · intro hshown
    have hlt : t.selected < t.shown.length := by
      rw [ht, length_shown_render hdraws.mounted, selected_render hdraws.mounted]
      rw [ht, ← List.length_pos_iff, length_shown_render hdraws.mounted] at hshown
      exact indexUnder_lt (List.length_pos_iff.mp hshown) _
    obtain ⟨r, hr⟩ : ∃ r, t.shown[t.selected]? = some r := ⟨_, List.getElem?_eq_getElem hlt⟩
    refine ⟨r, by rw [hmarked, hr]; rfl, hr, ?_⟩
    exact (Row.matchesName_iff t.pattern r).mp (List.mem_filter.mp (List.mem_of_getElem? hr)).2
  · intro hshown
    rw [hmarked, hshown]
    rfl

/-- A container is listed twice, and the table is drawn under a filter, by an action within an
action and with the cursor past the end: only the second of the two rows is marked, and none once
the filter lets none through. -/
theorem one_marked_at_most_of_two :
    let s₀ : Session := { table := {}, supply :=
      [{ id := ['b'] }, { id := ['a'], names := [['w']] }, { id := ['a'], names := [['w']] }] }
    let uses : List Use := [.step .mount, .step .render, .step (.filter (some ['w'])),
      .step (.cursorToLast 7), .act [.step .sort, .act [.step .render]]]
    let hidden : List Use := [.step (.filter (some ['v']))]
    let s := s₀.useAll uses
    let u := s₀.useAll (uses ++ hidden)
    (s₀.Fresh ∧ s₀.Passes (uses ++ hidden) s ∧ s₀.Passes (uses ++ hidden) u ∧ s.Draws .render ∧
        u.Draws .render) ∧
      s.table.marked.length ≤ 1 ∧
      (∃ r, (s.step .render).session.table.marked = [r] ∧
        (s.step .render).session.table.shown[1]? = some r ∧ r.id = ['a']) ∧
      (u.step .render).session.table.marked = [] := by
  intro s₀ uses hidden s u
  have hfresh : s₀.Fresh := ⟨rfl, rfl⟩
  have hs : s₀.Passes (uses ++ hidden) s := Session.passes_useAll s₀ uses hidden
  have hu : s₀.Passes (uses ++ hidden) u := by
    have hall := Session.passes_useAll s₀ (uses ++ hidden) []
    rwa [List.append_nil] at hall
  have hdraws : s.table.mounted ∧ u.table.mounted := by decide +kernel
  obtain ⟨hone, hdrawn⟩ := one_marked_at_most s₀ hfresh _ hs
  obtain ⟨-, hnone⟩ := one_marked_at_most s₀ hfresh _ hu
  obtain ⟨r, hr, hat, -⟩ := (hdrawn .render hdraws.1).1 (by decide +kernel)
  have hselected : (s.step .render).session.table.selected = 1 := by decide +kernel
  have hid : (s.step .render).session.table.shown[1]?.map Row.id = some ['a'] := by decide +kernel
  rw [hselected] at hat
  rw [hat, Option.map_some, Option.some.injEq] at hid
  exact ⟨⟨hfresh, hs, hu, hdraws.1, hdraws.2⟩, hone, ⟨r, hr, hat, hid⟩,
    (hnone .render hdraws.2).2 (by decide +kernel)⟩

end DockConsole.Table
