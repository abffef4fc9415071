import DockConsole.Proofs.Table.History

/-!
Actions that use the table they act on.

An action on the selected container may itself do with the table whatever can be done with it, and
further actions are part of that. It is run before the table can be used by anyone else, so any use
of a table comes to steps in a row, and what every run of steps keeps is kept by every use.
-/

namespace DockConsole.Table

/-- A step, or an action on the selected container that makes use of the table in its turn. -/
inductive Use where
  | step (step : Step)
  | act (uses : List Use)

namespace Session

mutual

/-- The state after a use. An action that finds no container to act on is not run. -/
def use (s : Session) : Use → Session
  | .step step => (s.step step).session
  | .act uses => (s.dispatch fun s _ => { session := s.useAll uses }).session

/-- The state after several uses. -/
def useAll (s : Session) : List Use → Session
  | [] => s
  | u :: uses => (s.use u).useAll uses

end

mutual

/-- The steps that a use comes to. -/
def stepsOf (s : Session) : Use → List Step
  | .step step => [step]
  | .act uses =>
    match s.table.target with
    | .ok _ => s.stepsOfAll uses
    | .error _ => []

/-- The steps that several uses come to. -/
def stepsOfAll (s : Session) : List Use → List Step
  | [] => []
  | u :: uses => s.stepsOf u ++ (s.use u).stepsOfAll uses

end

lemma session_dispatch (s : Session) (act : Session → Text → Outcome) :
    (s.dispatch act).session =
      match s.table.target with
      | .ok id => (act s id).session
      | .error _ => s := by
  rw [dispatch]
  cases s.table.target <;> rfl

mutual

lemma use_eq_run (s : Session) : ∀ u, s.use u = s.run (s.stepsOf u)
  | .step _ => rfl
  | .act uses => by
    rw [use, session_dispatch, stepsOf]
    cases s.table.target with
    | ok id => exact useAll_eq_run s uses
    | error => rfl

/-- A table is used in no other way than by a run of steps. -/
lemma useAll_eq_run (s : Session) : ∀ uses, s.useAll uses = s.run (s.stepsOfAll uses)
  | [] => rfl
  | u :: uses => by
    rw [useAll, stepsOfAll, run_append, ← use_eq_run s u]
    exact useAll_eq_run _ uses

end

/-- The rows go back to the last answer, whether a step of its own or an action asked for it. -/
lemma holds_useAll {s : Session} {h : History} (hh : s.table.Holds h) (uses : List Use) :
    (s.useAll uses).table.Holds (h.run s (s.stepsOfAll uses)) := by
  rw [useAll_eq_run]
  exact holds_run hh _

end Session

end DockConsole.Table
