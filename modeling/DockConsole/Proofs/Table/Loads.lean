import DockConsole.Proofs.Table.Conservation
import DockConsole.Proofs.Table.Uses

/-!
Loads that succeed and loads that fail.

A load that fails leaves no trace: the table is as it was, and a run goes on as if the load had not
been tried. So the rows go back to the last load that succeeded. While the table is mounted, what was
asked for then is what it is set to show now.
-/

namespace DockConsole.Table

/-! ### A load, whoever is asked -/

section Provider

variable {ε : Type}

/-- Who is asked for containers. It answers, or fails with an error of some kind. That the program is
interrupted while it asks is no error of the provider. -/
abbrev Provider (ε : Type) := List Selection → SortMode → Except ε (List Container)

/-- A mounted table is not loaded again. -/
def mountFrom (t : Table) (p : Provider ε) : Table × Except ε Unit :=
  if t.mounted then (t, .ok ())
  else
    match p t.selections t.sortMode with
    | .ok containers => (t.load containers, .ok ())
    | .error e => (t, .error e)

/-- The table is unmounted to be mounted anew, and counts as mounted again if that fails and it was
so before. -/
def remountFrom (t : Table) (p : Provider ε) : Table × Except ε Unit :=
  match t.unmount.mountFrom p with
  | (u, .ok ()) => (u, .ok ())
  | (u, .error e) => ({ u with mounted := t.mounted }, .error e)

variable {t : Table} {p : Provider ε}

lemma mountFrom_of_error {e : ε} (hmounted : ¬ t.mounted)
    (h : p t.selections t.sortMode = .error e) : t.mountFrom p = (t, .error e) := by
  rw [mountFrom, if_neg hmounted, h]

lemma mountFrom_of_ok {containers : List Container} (hmounted : ¬ t.mounted)
    (h : p t.selections t.sortMode = .ok containers) :
    t.mountFrom p = (t.load containers, .ok ()) := by
  rw [mountFrom, if_neg hmounted, h]

lemma remountFrom_of_error {e : ε} (h : p t.selections t.sortMode = .error e) :
    t.remountFrom p = (t, .error e) := by
  have hunmounted : t.unmount.mountFrom p = (t.unmount, .error e) :=
    mountFrom_of_error Bool.false_ne_true h
  rw [remountFrom, hunmounted]
  rfl

lemma remountFrom_of_ok {containers : List Container}
    (h : p t.selections t.sortMode = .ok containers) :
    t.remountFrom p = (t.load containers, .ok ()) := by
  have hunmounted : t.unmount.mountFrom p = (t.unmount.load containers, .ok ()) :=
    mountFrom_of_ok Bool.false_ne_true h
  rw [remountFrom, hunmounted]
  rfl

end Provider

namespace Session

/-- The provider of a session, as it answers at present. -/
def provider (s : Session) : Provider Outage := fun _ _ =>
  match s.outage with
  | some o => .error o
  | none => .ok s.supply

lemma table_reload (s : Session) : s.reload.session.table = (s.table.remountFrom s.provider).1 := by
  rw [reload]
  cases ho : s.outage with
  | some o =>
    have herror : s.provider s.table.selections s.table.sortMode = .error o := by
      rw [provider, ho]
    rw [remountFrom_of_error herror]
  | none =>
    have hok : s.provider s.table.selections s.table.sortMode = .ok s.supply := by
      rw [provider, ho]
    rw [remountFrom_of_ok hok]

lemma table_mount (s : Session) : s.mount.session.table = (s.table.mountFrom s.provider).1 := by
  rw [mount, mountFrom]
  split
  · rfl
  · next hmounted =>
    rw [reload, provider]
    cases s.outage <;> rfl

end Session

/-! ### What is asked of the provider -/

/-- What the provider is asked for, and what it answers if it does not fail. -/
structure Query where
  selections : List Selection
  answer : Option (List Container)
deriving Repr

namespace Query

def failed (q : Query) : Bool := q.answer.isNone

/-- What was asked for and answered, if the query did not fail. -/
def answered? (q : Query) : Option (List Selection × List Container) :=
  q.answer.map (q.selections, ·)

end Query

def Notice.asked? : Notice → Option (List Selection)
  | asked selections _ => some selections
  | _ => none

namespace Session

/-- What the provider answers at present. -/
def answer? (s : Session) : Option (List Container) :=
  if s.outage.isSome then none else some s.supply

/-- The queries that a step gives notice of. -/
def queries (s : Session) (step : Step) : List Query :=
  ((s.step step).notices.filterMap Notice.asked?).map (⟨·, s.answer?⟩)

/-- The queries of a run. -/
def queriesIn (s : Session) : List Step → List Query
  | [] => []
  | step :: steps => s.queries step ++ (s.step step).session.queriesIn steps

lemma queriesIn_append (s : Session) (xs ys : List Step) :
    s.queriesIn (xs ++ ys) = s.queriesIn xs ++ (s.run xs).queriesIn ys := by
  induction xs generalizing s with
  | nil => rfl
  | cons x xs ih =>
    rw [List.cons_append, queriesIn, queriesIn, ih, List.append_assoc]
    rfl

/-- The steps of a run but for those of which a query fails. -/
def heeded (s : Session) : List Step → List Step
  | [] => []
  | step :: steps =>
    if (s.queries step).any Query.failed then s.heeded steps
    else step :: (s.step step).session.heeded steps

/-- The step is a load, and not one that finds the table mounted or no container to act on. -/
def Asks (s : Session) : Step → Prop
  | .mount => ¬ s.table.mounted
  | .remount => True
  | .dispatch .remount => ∃ id, s.table.target = .ok id
  | _ => False

lemma asked_reload (s : Session) :
    s.reload.notices.filterMap Notice.asked? = [s.table.selections] := by
  rw [reload]
  split <;> rfl

lemma act_remount (s : Session) (id : Text) :
    (s.act id .remount).session = s.reload.session ∧
      (s.act id .remount).notices = s.reload.notices ∧
      ∀ why, s.reload.answer = .failed why → (s.act id .remount).answer = .failed why := by
  rw [act]
  split
  · exact ⟨rfl, rfl, fun _ h => h⟩
  · next hanswer => exact ⟨rfl, rfl, fun why h => absurd h (hanswer why)⟩

variable {s : Session} {step : Step}

/-- A load asks once, and comes to the reload of the table. -/
lemma step_of_asks (h : s.Asks step) :
    (s.step step).session = s.reload.session ∧
      (s.step step).notices.filterMap Notice.asked? = [s.table.selections] ∧
      ∀ why, s.reload.answer = .failed why → (s.step step).answer = .failed why := by
  have hasked := s.asked_reload
  cases step with
  | mount =>
    rw [Session.step, mount, if_neg h]
    exact ⟨rfl, hasked, fun _ hwhy => hwhy⟩
  | remount => exact ⟨rfl, hasked, fun _ hwhy => hwhy⟩
  | dispatch action =>
    cases action with
    | remount =>
      obtain ⟨id, htarget⟩ := h
      obtain ⟨hsession, hnotices, hanswer⟩ := act_remount s id
      rw [Session.step, dispatch_of_target htarget]
      refine ⟨hsession, ?_, hanswer⟩
      show (s.act id .remount).notices.filterMap _ = _
      rw [hnotices, hasked]
    | _ => exact h.elim
  | _ => exact h.elim

lemma asked_of_not_asks (h : ¬ s.Asks step) :
    (s.step step).notices.filterMap Notice.asked? = [] := by
  cases step with
  | mount => rw [Session.step, mount, if_pos (not_not.mp h)]; rfl
  | remount => exact absurd trivial h
  | dispatch action =>
    rw [Session.step, dispatch]
    split
    · rfl
    · next id htarget =>
      cases action with
      | remount => exact absurd ⟨id, htarget⟩ h
      | _ => rfl
  | _ => rfl

lemma queries_of_asks (h : s.Asks step) : s.queries step = [⟨s.table.selections, s.answer?⟩] := by
  rw [queries, (step_of_asks h).2.1]
  rfl

lemma queries_of_not_asks (h : ¬ s.Asks step) : s.queries step = [] := by
  rw [queries, asked_of_not_asks h]
  rfl

/-! ### Loads that fail -/

/-- A load that fails tells so, and nothing else comes of it. -/
lemma step_of_outage {o : Outage} (ho : s.outage = some o) (hasks : s.Asks step) :
    (s.step step).session = s ∧ (s.step step).answer = .failed (.outage o) := by
  obtain ⟨hsession, -, hanswer⟩ := step_of_asks hasks
  have hreload : s.reload.session = s ∧ s.reload.answer = .failed (.outage o) := by
    rw [reload, ho]
    exact ⟨rfl, rfl⟩
  exact ⟨hsession.trans hreload.1, hanswer _ hreload.2⟩

/-- Only loads have queries, and these fail while the provider does. -/
lemma failed_iff : (s.queries step).any Query.failed ↔ s.Asks step ∧ s.outage.isSome := by
  by_cases hasks : s.Asks step
  · rw [queries_of_asks hasks, answer?]
    cases s.outage <;> simp [Query.failed, hasks]
  · rw [queries_of_not_asks hasks]
    simp [hasks]

/-- A run is the run without its failed loads. -/
lemma run_heeded (s : Session) (steps : List Step) : s.run (s.heeded steps) = s.run steps := by
  induction steps generalizing s with
  | nil => rfl
  | cons step steps ih =>
    show s.run (s.heeded (step :: steps)) = (s.step step).session.run steps
    rw [heeded]
    split
    · next hfailed =>
      obtain ⟨hasks, hout⟩ := failed_iff.mp hfailed
      obtain ⟨o, ho⟩ := Option.isSome_iff_exists.mp hout
      rw [(step_of_outage ho hasks).1]
      exact ih s
    · exact ih _

end Session

/-- **Failed loads**: whatever error a provider fails with, and whatever state the table is in, a
load passes the error on and leaves the table as it was, mounted or not. In a session it leaves all
as it was, the next drawing too, be it a step of its own or that of an action. So what a session
comes to, it comes to without its failed loads. -/
theorem failed_loads_leave_no_trace (s : Session) :
    (∀ (ε : Type) (p : Provider ε) (e : ε), p s.table.selections s.table.sortMode = .error e →
        s.table.remountFrom p = (s.table, .error e) ∧
          (¬ s.table.mounted → s.table.mountFrom p = (s.table, .error e))) ∧
      ((s.step .remount).session.table = (s.table.remountFrom s.provider).1 ∧
        (s.step .mount).session.table = (s.table.mountFrom s.provider).1) ∧
      (∀ o step, s.outage = some o → s.Asks step →
        (s.step step).answer = .failed (.outage o) ∧ (s.step step).session = s ∧
          (s.step step).session.render.2 = s.render.2) ∧
      ∀ uses, s.useAll uses = s.run (s.heeded (s.stepsOfAll uses)) := by
  refine ⟨fun ε p e herror => ⟨remountFrom_of_error herror, fun hm => mountFrom_of_error hm herror⟩,
    ⟨s.table_reload, s.table_mount⟩, fun o step ho hasks => ?_, fun uses => ?_⟩
  · obtain ⟨hsession, hanswer⟩ := Session.step_of_outage ho hasks
    exact ⟨hanswer, hsession, by rw [hsession]⟩
  · rw [Session.run_heeded, Session.useAll_eq_run]

/-- All containers are asked for and not got: the two rows stay, unmounted and the first of them
highlighted, and what follows is as if nothing had been asked. -/
theorem failed_loads_leave_no_trace_unmounted :
    let t : Table := ((Table.load {} [{ id := ['b'] }, { id := ['a'] }]).render {}).1.toggleShowAll
    let o : Outage := { message := ['x'] }
    let s : Session := { table := t, supply := [{ id := ['c'] }], outage := some o }
    let p : Provider ℕ := fun _ _ => .error 7
    (p t.selections t.sortMode = .error 7 ∧ ¬ t.mounted ∧ s.outage = some o ∧ s.Asks .mount ∧
        s.Asks .remount ∧ s.Asks (.dispatch .remount)) ∧
      t.remountFrom p = (t, .error 7) ∧
      ((s.step .mount).session = s ∧ (s.step (.dispatch .remount)).session = s) ∧
      t.rows.map (fun r => (r.id, r.highlighted)) = [(['a'], true), (['b'], false)] ∧
      s.useAll [.step .remount, .act [.step .mount, .step .sort], .step (.fail none), .step .mount] =
        s.run [.sort, .fail none, .mount] := by
  intro t o s p
  have hunmounted : ¬ t.mounted := by decide +kernel
  have htarget : t.target = .ok ['a'] := by decide +kernel
  obtain ⟨hany, -, hsession, hrun⟩ := failed_loads_leave_no_trace s
  exact ⟨⟨rfl, hunmounted, rfl, hunmounted, trivial, ['a'], htarget⟩, (hany ℕ p 7 rfl).1,
    ⟨(hsession o .mount rfl hunmounted).2.1,
      (hsession o (.dispatch .remount) rfl ⟨['a'], htarget⟩).2.1⟩, by decide +kernel, hrun _⟩

/-! ### Loads that succeed -/

namespace History

/-- What was asked for and answered at the last load. -/
def last (h : History) : List Selection × List Container := (h.asked, h.answer)

variable {s : Session} {step : Step}

lemma last_step_of_not_asks (h : History) (hnot : ¬ s.Asks step) : (h.step s step).last = h.last := by
  have hrender : (h.render s).last = h.last := by
    rw [History.render]
    split <;> rfl
  cases step with
  | mount => rw [History.step, if_pos (not_not.mp hnot)]
  | remount => exact absurd trivial hnot
  | render => exact hrender
  | dispatch action =>
    rw [History.step]
    split
    · next id htarget =>
      cases action with
      | render => exact hrender
      | remount => exact absurd ⟨id, htarget⟩ hnot
      | _ => rfl
    · rfl
  | _ => rfl

lemma step_of_asks (h : History) (hasks : s.Asks step) : h.step s step = h.reload s := by
  cases step with
  | mount => exact if_neg hasks
  | remount => rfl
  | dispatch action =>
    cases action with
    | remount =>
      obtain ⟨id, htarget⟩ := hasks
      rw [History.step, htarget]
      rfl
    | _ => exact hasks.elim
  | _ => exact hasks.elim

lemma last_step (h : History) :
    (h.step s step).last =
      ((s.queries step).filterMap Query.answered?).getLast?.getD h.last := by
  by_cases hasks : s.Asks step
  · rw [h.step_of_asks hasks, Session.queries_of_asks hasks, History.reload, Session.answer?]
    cases s.outage <;> rfl
  · rw [h.last_step_of_not_asks hasks, Session.queries_of_not_asks hasks]
    rfl

/-- The history of a run ends with the last query that was answered. -/
lemma last_run (h : History) (s : Session) (steps : List Step) :
    (h.run s steps).last =
      ((s.queriesIn steps).filterMap Query.answered?).getLast?.getD h.last := by
  induction steps generalizing h s with
  | nil => rfl
  | cons step steps ih =>
    rw [History.run, ih, last_step, Session.queriesIn, List.filterMap_append,
      List.getLast?_append, Option.getD_or]

end History

/-- **Provision**: after any uses of a table that starts out unmounted, if it is mounted, then its
rows are those of the last query that succeeded, in some order, and that query was for all
containers or for running ones, as the table is set now. -/
theorem rows_of_last_query (s₀ : Session) (hfresh : s₀.Fresh) (uses : List Use)
    (hmounted : (s₀.useAll uses).table.mounted) :
    let t := (s₀.useAll uses).table
    ∃ answer : List Container,
      ((s₀.queriesIn (s₀.stepsOfAll uses)).filterMap Query.answered?).getLast? =
          some (if t.showAll then [.unfiltered] else [.running], answer) ∧
        (t.rows.map Row.bare).Perm (answer.map (Row.ofContainer t.header.titles)) := by
  intro t
  have hh : t.Holds _ := Session.holds_useAll hfresh.holds uses
  have hlast := History.last_run {} s₀ (s₀.stepsOfAll uses)
  have hasked := hh.asked hmounted
  cases hquery : ((s₀.queriesIn (s₀.stepsOfAll uses)).filterMap Query.answered?).getLast? with
  | none =>
    -- without a load nothing was asked for, and a table is set to show something
    rw [hquery] at hlast
    rw [show (History.run {} s₀ (s₀.stepsOfAll uses)).asked = [] from congrArg Prod.fst hlast,
      selections] at hasked
    split at hasked <;> cases hasked
  | some q =>
    rw [hquery] at hlast
    obtain rfl : (History.run {} s₀ (s₀.stepsOfAll uses)).last = q := hlast
    exact ⟨_, congrArg (fun asked => some (asked, _)) hasked, hh.perm⟩

/-- From running containers over to all of them: the first try fails, and the second is made by an
action within an action. -/
theorem rows_of_last_query_switched :
    let s₀ : Session := { table := {}, supply := [{ id := ['b'] }, { id := ['a'] }] }
    let uses : List Use := [.step .mount, .step .render, .step .toggleShowAll,
      .step (.fail (some { message := [] })), .step .remount, .step (.fail none),
      .step (.supply [{ id := ['c'] }, { id := ['a'] }]), .act [.step .sort, .act [.step .remount]],
      .step .render]
    let t := (s₀.useAll uses).table
    (s₀.Fresh ∧ t.mounted) ∧ t.showAll ∧
      (t.rows.map Row.bare).Perm
        ([{ id := ['c'] }, { id := ['a'] }].map (Row.ofContainer t.header.titles)) := by
  intro s₀ uses t
  have hfresh : s₀.Fresh := ⟨rfl, rfl⟩
  have hmounted : t.mounted := by decide +kernel
  have hlast : ((s₀.queriesIn (s₀.stepsOfAll uses)).filterMap Query.answered?).getLast? =
      some ([.unfiltered], [{ id := ['c'] }, { id := ['a'] }]) := by
    decide +kernel
  obtain ⟨answer, hquery, hperm⟩ := rows_of_last_query s₀ hfresh uses hmounted
  rw [hlast, Option.some.injEq, Prod.mk.injEq] at hquery
  exact ⟨⟨hfresh, hmounted⟩, by decide +kernel, hquery.2 ▸ hperm⟩

end DockConsole.Table
