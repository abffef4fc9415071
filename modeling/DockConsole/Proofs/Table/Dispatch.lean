import DockConsole.Proofs.Rows.Narrowing
import DockConsole.Proofs.Table.Uses

/-!
When an action is run, and on which row.

An action is run on a row that passes the filter, whatever index is left over from the last drawing,
and is not run at all if there is no such row. In the first case all that comes of it is the
action's doing, in the second nothing has changed.
-/

namespace DockConsole.Table

variable {t : Table}

lemma mem_shown_iff {r : Row} : r ∈ t.shown ↔ r ∈ t.rows ∧ r.Bears t.pattern := by
  rw [shown, Rows.filter, List.mem_filter, Rows.matchesName_iff_bears]

lemma shown_eq_nil_iff : t.shown = [] ↔ ∀ r ∈ t.rows, ¬ r.Bears t.pattern := by
  rw [List.eq_nil_iff_forall_not_mem]
  constructor
  · intro h r hr hbears
    exact h r (mem_shown_iff.mpr ⟨hr, hbears⟩)
  · intro h r hr
    obtain ⟨hheld, hbears⟩ := mem_shown_iff.mp hr
    exact h r hheld hbears

/-- What is said if there is no row to act on. -/
def noTarget (t : Table) : NoTarget := if t.rows.isEmpty then .nothingLoaded else .noMatch t.pattern

lemma message_noMatch_ne (pattern : Text) :
    (NoTarget.noMatch pattern).message ≠ NoTarget.nothingLoaded.message := by
  intro h
  have hhead : some 'N' = some 'T' := congrArg List.head? h
  exact absurd hhead (by decide)

/-- What is said names the filter if rows are held, and says that there are none otherwise. -/
lemma message_noTarget_iff (t : Table) :
    (t.noTarget.message = (NoTarget.noMatch t.pattern).message ↔ t.rows ≠ []) ∧
      (t.noTarget.message = NoTarget.nothingLoaded.message ↔ t.rows = []) := by
  have hne := message_noMatch_ne t.pattern
  rw [noTarget]
  cases t.rows with
  | nil => exact ⟨iff_of_false hne.symm (not_not_intro rfl), iff_of_true rfl rfl⟩
  | cons r rows =>
    exact ⟨iff_of_true rfl (List.cons_ne_nil r rows), iff_of_false hne (List.cons_ne_nil r rows)⟩

lemma target_of_shown_eq_nil (h : t.shown = []) : t.target = .error t.noTarget := by
  rw [target, h]
  rfl

/-- An index left over is brought within the rows shown, so it finds one if there is any. -/
lemma exists_target (h : t.shown ≠ []) :
    ∃ r, t.shown[min t.selected (t.shown.length - 1)]? = some r ∧ t.target = .ok r.id := by
  have hpos := List.length_pos_iff.mpr h
  have hlt : min t.selected (t.shown.length - 1) < t.shown.length := by omega
  have hr := List.getElem?_eq_getElem hlt
  exact ⟨_, hr, target_of_getElem? hr rfl⟩

namespace Session

variable {s : Session}

/-- The dispatch is turned down: it says why, and nothing has been done. -/
def TurnsDown (s : Session) (o : Outcome) (n : NoTarget) : Prop :=
  o.session = s ∧ o.answer = .failed (.noTarget n) ∧ o.notices = []

lemma turnsDown_dispatch (h : s.table.shown = []) (act : Session → Text → Outcome) :
    s.TurnsDown (s.dispatch act) s.table.noTarget := by
  rw [dispatch, target_of_shown_eq_nil h]
  exact ⟨rfl, rfl, rfl⟩

lemma not_turnsDown {id : Text} (h : s.table.target = .ok id) (act : Session → Text → Outcome)
    (n : NoTarget) : ¬ s.TurnsDown (s.dispatch act) n := by
  rintro ⟨-, -, hnotices⟩
  rw [dispatch_of_target h] at hnotices
  cases hnotices

lemma turnsDown_iff {act : Session → Text → Outcome} {n : NoTarget} :
    s.TurnsDown (s.dispatch act) n ↔ s.table.shown = [] ∧ n = s.table.noTarget := by
  constructor
  · intro h
    by_cases hshown : s.table.shown = []
    · have hanswer := (turnsDown_dispatch hshown act).2.1
      rw [h.2.1] at hanswer
      cases hanswer
      exact ⟨hshown, rfl⟩
    · obtain ⟨r, -, htarget⟩ := exists_target hshown
      exact absurd h (not_turnsDown htarget act n)
  · rintro ⟨hshown, rfl⟩
    exact turnsDown_dispatch hshown act

end Session

/-- **Dispatch**: an action is turned down, with nothing done, exactly if no row that is held passes
the filter; what is said then names the filter exactly if rows are held. Otherwise the index left
over, brought within the rows shown, finds one of them, and all that comes of the dispatch is what
the action makes of the id of that row, run once. -/
theorem dispatch_guarded (s : Session) (act : Session → Text → Outcome) :
    let t := s.table
    let o := s.dispatch act
    ((∃ n, s.TurnsDown o n) ↔ ∀ r ∈ t.rows, ¬ r.Bears t.pattern) ∧
      (∀ n, s.TurnsDown o n →
        (n.message = "No container matches the filter '".toList ++ t.pattern ++ ['\''] ↔
            t.rows ≠ []) ∧
          (n.message = "The container list is empty".toList ↔ t.rows = [])) ∧
      ((∀ id n, (act s id).answer ≠ .failed (.noTarget n)) →
        ((∃ n, o.answer = .failed (.noTarget n)) ↔ ∀ r ∈ t.rows, ¬ r.Bears t.pattern)) ∧
      ((∃ r ∈ t.rows, r.Bears t.pattern) →
        ∃ (index : ℕ) (r : Row), index = min t.selected (t.shown.length - 1) ∧
          t.shown[index]? = some r ∧ r ∈ t.rows ∧ r.Bears t.pattern ∧
          o = { act s r.id with notices := .acted r.id :: (act s r.id).notices } ∧
          ∀ action, (s.step (.dispatch action)).notices.filterMap Notice.acted? = [r.id]) := by
  intro t o
  have hdown (n : NoTarget) : s.TurnsDown o n ↔ t.shown = [] ∧ n = t.noTarget :=
    Session.turnsDown_iff
  have hran (hshown : t.shown ≠ []) : ∃ r, t.shown[min t.selected (t.shown.length - 1)]? = some r ∧
      t.target = .ok r.id ∧
      o = { act s r.id with notices := .acted r.id :: (act s r.id).notices } := by
    obtain ⟨r, hr, htarget⟩ := exists_target hshown
    exact ⟨r, hr, htarget, Session.dispatch_of_target htarget act⟩
  refine ⟨?_, fun n hn => ?_, fun hact => ?_, fun hpasses => ?_⟩
  · rw [← shown_eq_nil_iff]
    exact ⟨fun ⟨n, hn⟩ => ((hdown n).mp hn).1, fun hshown => ⟨_, (hdown _).mpr ⟨hshown, rfl⟩⟩⟩
  · rw [((hdown n).mp hn).2]
    exact message_noTarget_iff t
  · rw [← shown_eq_nil_iff]
    constructor
    · rintro ⟨n, hfailed⟩
      by_contra hshown
      obtain ⟨r, -, -, ho⟩ := hran hshown
      rw [ho] at hfailed
      exact hact r.id n hfailed
    · intro hshown
      exact ⟨t.noTarget, ((hdown _).mpr ⟨hshown, rfl⟩).2.1⟩
  · have hshown : t.shown ≠ [] := by
      rw [ne_eq, shown_eq_nil_iff]
      rintro hnone
      obtain ⟨r, hr, hbears⟩ := hpasses
      exact hnone r hr hbears
    obtain ⟨r, hr, htarget, ho⟩ := hran hshown
    obtain ⟨hheld, hbears⟩ := mem_shown_iff.mp (List.mem_of_getElem? hr)
    refine ⟨_, r, rfl, hr, hheld, hbears, ho, fun action => ?_⟩
    rw [Session.step, Session.dispatch_of_target htarget]
    exact congrArg (r.id :: ·) (Session.acted_act s r.id action)

/-- The last of three rows was selected, and a filter set since lets only two through: the action is
run on the second of them, and the list that it loads is empty. With a filter that lets none through
it is turned down. -/
theorem dispatch_guarded_when_stale :
    let s₀ : Session := { table := {}, supply := [{ id := ['a'], names := [['w']] },
      { id := ['b'], names := [['w']] }, { id := ['c'], names := [['v']] }] }
    let s := s₀.useAll [.step .mount, .step (.cursorToLast 2), .step .render,
      .step (.filter (some ['w']))]
    let u := s.use (.step (.filter (some ['x'])))
    let act : Session → Text → Outcome :=
      fun s _ => { session := s.useAll [.step (.supply []), .step .remount] }
    ((∃ r ∈ s.table.rows, r.Bears s.table.pattern) ∧ s.table.selected = 2 ∧
        (∀ r ∈ u.table.rows, ¬ r.Bears u.table.pattern) ∧ u.table.rows ≠ []) ∧
      (s.dispatch act).notices = [.acted ['b']] ∧ (s.dispatch act).session.table.rows = [] ∧
      ∃ n, u.TurnsDown (u.dispatch act) n ∧
        n.message = "No container matches the filter 'x'".toList := by
  intro s₀ s u act
  have hshown : s.table.shown ≠ [] ∧ u.table.shown = [] := by decide +kernel
  have hpasses : ∃ r ∈ s.table.rows, r.Bears s.table.pattern := by
    obtain ⟨r, hr⟩ := List.exists_mem_of_ne_nil _ hshown.1
    exact ⟨r, mem_shown_iff.mp hr⟩
  have hnone := shown_eq_nil_iff.mp hshown.2
  have hheld : u.table.rows ≠ [] ∧ s.table.selected = 2 := by decide +kernel
  have hloaded : (s.useAll [.step (.supply []), .step .remount]).table.rows = [] := by
    decide +kernel
  obtain ⟨-, -, -, hran⟩ := dispatch_guarded s act
  obtain ⟨index, r, rfl, hr, -, -, ho, -⟩ := hran hpasses
  have hid : (s.table.shown[min s.table.selected (s.table.shown.length - 1)]?).map Row.id =
      some ['b'] := by decide +kernel
  rw [hr, Option.map_some, Option.some.injEq] at hid
  obtain ⟨hiff, hsaid, -⟩ := dispatch_guarded u act
  obtain ⟨n, hn⟩ := hiff.mpr hnone
  refine ⟨⟨hpasses, hheld.2, hnone, hheld.1⟩, ?_, ?_, n, hn, (hsaid n hn).1.mpr hheld.1⟩
  · rw [ho, hid]
  · rw [ho]
    exact hloaded

end DockConsole.Table
