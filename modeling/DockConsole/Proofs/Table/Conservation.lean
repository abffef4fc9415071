import DockConsole.Proofs.Table.History

/-!
No row is lost, and none comes twice.

Whatever is done with a table, it holds the rows of the last answer, each as often as the answer
lists it. Drawing puts them in order and leaves rows that tie as they stood.
-/

namespace DockConsole.Table

lemma bare_render {t : Table} (hmounted : t.mounted) (cursor : Cursor) :
    (t.render cursor).1.rows.map Row.bare = Rows.sort (t.rows.map Row.bare) t.sortMode := by
  have hplain (rows : List Row) : (Rows.plain rows).map Row.bare = rows.map Row.bare := by
    rw [Rows.plain, List.map_map]
    rfl
  rw [render_of_mounted hmounted]
  show (t.sort.select cursor).rows.map Row.bare = _
  rw [rows_select_sort, Rows.map_highlight (f := Row.bare) fun _ => rfl, hplain, sort,
    Rows.map_sort (f := Row.bare) fun _ => rfl]

lemma Holds.perm {t : Table} {h : History} (hh : t.Holds h) :
    (t.rows.map Row.bare).Perm (h.built t.header.titles) := by
  rw [hh.rows]
  exact h.rows_perm

namespace Session

/-- The step draws a mounted table, by itself or by the action that it runs. -/
def Draws (s : Session) : Step → Prop
  | .render => s.table.mounted
  | .dispatch .render => s.table.mounted ∧ ∃ id, s.table.target = .ok id
  | _ => False

lemma Draws.mounted {s : Session} {step : Step} (h : s.Draws step) : s.table.mounted := by
  cases step with
  | render => exact h
  | dispatch action =>
    cases action with
    | render => exact h.1
    | _ => exact h.elim
  | _ => exact h.elim

lemma Draws.table_eq {s : Session} {step : Step} (h : s.Draws step) :
    (s.step step).session.table = (s.table.render s.cursor).1 := by
  cases step with
  | render => rfl
  | dispatch action =>
    cases action with
    | render =>
      obtain ⟨-, id, htarget⟩ := h
      rw [Session.step, dispatch_of_target htarget]
      rfl
    | _ => exact h.elim
  | _ => exact h.elim

end Session

/-- **Conservation**: after any steps the rows are, in some order, those built from the answer of
the last load that succeeded, and as many. A drawing sorts them by the present order, stably. -/
theorem rows_conserved (s₀ : Session) (hfresh : s₀.Fresh) (steps : List Step) :
    let s := s₀.run steps
    let answer := (History.run {} s₀ steps).answer
    (s.table.rows.map Row.bare).Perm (answer.map (Row.ofContainer s.table.header.titles)) ∧
      s.table.rows.length = answer.length ∧
      ∀ step, s.Draws step → Rows.Sorts s.table.sortMode (s.table.rows.map Row.bare)
        ((s.step step).session.table.rows.map Row.bare) := by
  intro s answer
  have hh : s.table.Holds (History.run {} s₀ steps) := Session.holds_run hfresh.holds steps
  refine ⟨hh.perm, ?_, fun step hdraws => ?_⟩
  · have hlength := hh.perm.length_eq
    rwa [List.length_map, History.built, List.length_map] at hlength
  · rw [hdraws.table_eq, Rows.sorts_iff]
    exact bare_render hdraws.mounted s.cursor

/-- A load that fails, and one by an action, keep the two rows of `b` and bring no others. -/
theorem rows_conserved_through_outage :
    let s₀ : Session :=
      { table := {}, supply := [{ id := ['b'] }, { id := ['a'] }, { id := ['b'] }] }
    let steps := [Step.mount, .render, .sort, .dispatch .remount, .supply [], .fail (some ⟨[], []⟩),
      .remount]
    ∃ s, s = s₀.run steps ∧ (s₀.Fresh ∧ s.Draws (.dispatch .render)) ∧
      (s.table.rows.map Row.bare).Perm
        (s₀.supply.map (Row.ofContainer s.table.header.titles)) ∧
      Rows.Sorts s.table.sortMode (s.table.rows.map Row.bare)
        ((s.step (.dispatch .render)).session.table.rows.map Row.bare) := by
  intro s₀ steps
  have hfresh : s₀.Fresh := ⟨rfl, rfl⟩
  have htarget : (s₀.run steps).table.mounted ∧ (s₀.run steps).table.target = .ok ['b'] := by
    decide +kernel
  have hdraws : (s₀.run steps).Draws (.dispatch .render) := ⟨htarget.1, ['b'], htarget.2⟩
  have hanswer : (History.run {} s₀ steps).answer = s₀.supply := by decide +kernel
  obtain ⟨hperm, -, hsorts⟩ := rows_conserved s₀ hfresh steps
  rw [hanswer] at hperm
  exact ⟨_, rfl, ⟨hfresh, hdraws⟩, hperm, hsorts _ hdraws⟩

end DockConsole.Table
