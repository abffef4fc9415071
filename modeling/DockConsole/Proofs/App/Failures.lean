import DockConsole.Proofs.App.Navigation
import DockConsole.Proofs.Daemon.Faults
import DockConsole.Proofs.Screen.HelpBar
import DockConsole.Proofs.Table.Conservation

/-!
What becomes of a request that fails.

A failed reload or inspection is told in the help bar of the next frame, and a failed round of the
refresh loop in the log, if the daemon module made an error of its own of it. A fault is caught
nowhere. If it comes of a key, the program ends with it. If it comes of a round of the refresh loop,
the loop ends, and the program goes on without it.
-/

namespace DockConsole

/-- A request, what keeps the answer from being used, and what came of it. -/
structure Asked where
  request : Request
  misfit? : Json → Option (Fault × Text)
  result : Except Trouble Unit

/-- What the help bar says when a command has failed. -/
def Command.complaint (c : Command) (e : FetchError) : Text :=
  (if c = .inspect then "Inspect failed: " else "Refresh failed: ").toList ++ e.message

namespace App

variable {a : App} {f : Fault} {text : Text} {e : FetchError}

/-! ### Commands -/

/-- What comes of the list, up to the rows of the table. -/
def askList (a : App) : Asked where
  request := a.daemon.listRequest a.table.selections
  misfit? := Daemon.listMisfit?
  result := ((a.daemon.list a.table.selections a.table.sortMode a.network).result.bind
    containers).map fun _ => ()

/-- What comes of the details of a container, up to the lines of their page. -/
def askDetails (a : App) (id : Text) : Asked where
  request := a.daemon.detailsRequest id
  misfit? := Daemon.detailsMisfit?
  result := ((a.daemon.inspect id a.network).result.bind details).map fun _ => ()

/-- What a command asks the daemon for, if anything, and what comes of it. -/
def ask? (a : App) : Command → Option Asked
  | .reload => some a.askList
  | .toggleShowAll => some { a with table := a.table.toggleShowAll }.askList
  | .inspect =>
    match a.registry.get? Table.source, a.table.target with
    | some _, .ok id => some (a.askDetails id)
    | _, _ => none
  | _ => none

/-- The request is struck by a fault, or the answer to it is. -/
def Struck (a : App) (q : Asked) (f : Fault) (text : Text) : Prop :=
  a.daemon.Strikes q.request q.misfit? a.network f text

lemma map_eq_error {α : Type} {result : Except Trouble α} {t : Trouble} :
    result.map (fun _ => ()) = .error t ↔ result = .error t := by
  cases result <;> simp [Except.map]

/-- What fails without a fault has an error of its own. -/
lemma exists_fetch {result : Except Trouble Unit} (hfailed : result ≠ .ok ())
    (hspared : ∀ f text, result ≠ .error (.fault f text)) :
    ∃ e, result = .error (.fetch e) := by
  match result with
  | .ok () => exact absurd rfl hfailed
  | .error (.fetch e) => exact ⟨e, rfl⟩
  | .error (.fault f text) => exact absurd rfl (hspared f text)

lemma containers_fault_iff (summaries : List Summary) :
    containers summaries = .error (.fault f text) ↔
      summaries.findSome? Summary.rowMisfit? = some (f, text) := by
  rw [containers, Summary.containers]
  cases summaries.findSome? Summary.rowMisfit? with
  | none => simp [Except.mapError]
  | some e => simp [Except.mapError, Trouble.ofFault, Prod.ext_iff]

lemma details_fault_iff (v : Json) :
    details v = .error (.fault f text) ↔ Page.misfit? v = some (f, text) := by
  rw [details]
  cases Page.misfit? v with
  | none => simp
  | some e => simp [Trouble.ofFault, Prod.ext_iff]

lemma askList_fault_iff (a : App) :
    a.askList.result = .error (.fault f text) ↔ a.Struck a.askList f text := by
  unfold Struck askList Daemon.listRequest
  rw [map_eq_error, Daemon.strikes_iff, Daemon.list]
  generalize a.daemon.fetch "/containers/json".toList (some _) a.network = reply
  simp only
  split
  · next t hresult => simp [hresult, Except.bind]
  · next items hresult =>
    simp only [hresult, Summary.readAll]
    cases hmisfit : items.findSome? Summary.misfit? with
    | none => simp [Except.bind, containers_fault_iff, Daemon.listMisfit?, hmisfit]
    | some e => simp [Except.bind, Daemon.listMisfit?, hmisfit, Trouble.ofFault, Prod.ext_iff]
  · next v hother hresult =>
    cases v with
    | arr items => exact absurd rfl (hother items)
    | _ => simp [hresult, Except.bind, Daemon.listMisfit?]

lemma askDetails_fault_iff (a : App) (id : Text) :
    (a.askDetails id).result = .error (.fault f text) ↔ a.Struck (a.askDetails id) f text := by
  unfold Struck askDetails Daemon.detailsRequest
  rw [map_eq_error, Daemon.strikes_iff, Daemon.inspect]
  generalize a.daemon.fetch _ none a.network = reply
  split
  · next fields hresult => simp [hresult, Except.bind, details_fault_iff, Daemon.detailsMisfit?]
  · next v hother hresult =>
    cases v with
    | obj fields => exact absurd rfl (hother fields)
    | _ => simp [hresult, Except.bind, Daemon.detailsMisfit?]
  · next t hresult => simp [hresult, Except.bind]

lemma ask?_fault_iff {c : Command} {q : Asked} (hq : q ∈ a.ask? c) :
    q.result = .error (.fault f text) ↔ a.Struck q f text := by
  cases c with
  | reload =>
    obtain rfl := Option.some.inj hq
    exact askList_fault_iff a
  | toggleShowAll =>
    obtain rfl := Option.some.inj hq
    exact askList_fault_iff _
  | inspect =>
    rw [ask?] at hq
    split at hq
    · obtain rfl := Option.some.inj hq
      exact askDetails_fault_iff a _
    · cases hq
  | _ => cases hq

lemma ask?_cleared (a : App) (c : Command) : { a with message := [] }.ask? c = a.ask? c := by
  cases c <;> rfl

lemma result_load (a : App) : a.load.2.2 = a.askList.result := by
  rw [load, askList]
  generalize a.daemon.list a.table.selections a.table.sortMode a.network = reply
  simp only
  split <;> next h => rw [h]; rfl

lemma table_load_of_error {t : Trouble} (h : a.askList.result = .error t) :
    a.load.1.table = a.table := by
  rw [← result_load] at h
  rw [load] at h ⊢
  split
  · rfl
  · next hlisted => simp [hlisted] at h

lemma reload_died_iff (a : App) :
    a.reload.next = .died f text ↔ a.askList.result = .error (.fault f text) := by
  rw [← result_load, reload]
  split <;> next h => simp [h]

lemma reload_of_fetch (h : a.askList.result = .error (.fetch e)) :
    a.reload.next = .list ∧
      a.reload.app.message = "Refresh failed: ".toList ++ e.message ∧
      a.reload.app.table = a.table := by
  have htable := table_load_of_error h
  rw [← result_load] at h
  rw [reload]
  split <;> next heq =>
    rw [heq] at h htable
    cases h <;> exact ⟨rfl, rfl, htable⟩

lemma inspect_died_iff (a : App) :
    a.inspect.next = .died f text ↔
      ∃ q ∈ a.ask? .inspect, q.result = .error (.fault f text) := by
  rw [inspect, ask?]
  cases a.registry.get? Table.source with
  | none => simp
  | some name =>
    cases a.table.target with
    | error => simp
    | ok id =>
      simp only [Option.mem_some_iff, exists_eq_left', askDetails, map_eq_error]
      split <;> next h => simp [h, showPage]

lemma inspect_of_fetch {q : Asked} (hq : q ∈ a.ask? .inspect) (h : q.result = .error (.fetch e)) :
    a.inspect.next = .list ∧
      a.inspect.app.message = "Inspect failed: ".toList ++ e.message ∧
      a.inspect.app.table = a.table := by
  rw [ask?] at hq
  rw [inspect]
  split at hq
  · next name id hregistered htarget =>
    obtain rfl := Option.some.inj hq
    have hreply : (a.daemon.inspect id a.network).result.bind details = .error (.fetch e) :=
      map_eq_error.mp h
    simp only [hregistered, htarget, hreply, and_self]
  · cases hq

lemma command_died_iff (a : App) (c : Command) :
    (a.command c).next = .died f text ↔
      ∃ q ∈ a.ask? c, q.result = .error (.fault f text) := by
  cases c with
  | reload => exact (reload_died_iff a).trans (by simp [ask?])
  | toggleShowAll => exact (reload_died_iff _).trans (by simp [ask?]; rfl)
  | inspect => exact inspect_died_iff a
  | _ => exact iff_of_false (by rintro ⟨⟩) (by rintro ⟨q, ⟨⟩, -⟩)

/-- A failure that is an error of its own leads back to the list, with a message and with the rows
that were there. -/
lemma command_of_fetch {c : Command} {q : Asked} (hq : q ∈ a.ask? c)
    (h : q.result = .error (.fetch e)) :
    (a.command c).next = .list ∧ (a.command c).app.message = c.complaint e ∧
      (a.command c).app.table.rows = a.table.rows := by
  cases c with
  | reload =>
    obtain rfl := Option.some.inj hq
    obtain ⟨hnext, hmessage, htable⟩ := reload_of_fetch h
    exact ⟨hnext, hmessage, congrArg Table.rows htable⟩
  | toggleShowAll =>
    obtain rfl := Option.some.inj hq
    obtain ⟨hnext, hmessage, htable⟩ :=
      reload_of_fetch (a := { a with table := a.table.toggleShowAll, cursor := a.cursor.home }) h
    refine ⟨hnext, hmessage, ?_⟩
    show (App.reload _).app.table.rows = _
    rw [htable]
    rfl
  | inspect =>
    obtain ⟨hnext, hmessage, htable⟩ := inspect_of_fetch hq h
    exact ⟨hnext, hmessage, congrArg Table.rows htable⟩
  | _ => cases hq

/-- A key of the list ends the program in a fault exactly if that fault strikes what its command asks
for. -/
lemma pressList_died_iff (a : App) (key : Int) :
    (a.pressList key).next = .died f text ↔
      ∃ c q, Command.ofKey key = some c ∧ q ∈ a.ask? c ∧ a.Struck q f text := by
  have hcommand (c : Command) : ({ a with message := [] }.command c).next = .died f text ↔
      ∃ q ∈ a.ask? c, a.Struck q f text := by
    rw [command_died_iff, ask?_cleared]
    exact exists_congr fun q => and_congr_right fun hq => ask?_fault_iff hq
  rw [pressList]
  split
  · next hsilent =>
    subst hsilent
    exact iff_of_false (by rintro ⟨⟩) (by rintro ⟨c, q, ⟨⟩, -⟩)
  · cases Command.ofKey key with
    | none => exact iff_of_false (by rintro ⟨⟩) (by rintro ⟨c, q, ⟨⟩, -⟩)
    | some c => simpa using hcommand c

/-! ### The refresh loop -/

/-- The program after so many loads. -/
def loaded (a : App) (count : ℕ) : App := (fun b => b.load.1)^[count] a

/-- A load is struck by a fault. -/
def Stricken (a : App) (f : Fault) (text : Text) : Prop := a.Struck a.askList f text

lemma refreshOnce_died_iff (a : App) :
    a.refreshOnce.next = .died f text ↔ a.Stricken f text := by
  rw [Stricken, ← askList_fault_iff, ← result_load, refreshOnce]
  split <;> next h => simp [h]

lemma refreshLoop_of_stricken (h : a.Stricken f text) (rounds : ℕ) :
    (a.refreshLoop (rounds + 1)).app = a.load.1 ∧
      (a.refreshLoop (rounds + 1)).next = .died f text := by
  rw [refreshLoop, (refreshOnce_died_iff a).mpr h]
  exact ⟨app_refreshOnce a, rfl⟩

/-- A round that no fault strikes is followed by the others. -/
lemma refreshLoop_of_spared (h : ∀ f text, ¬ a.Stricken f text) (rounds : ℕ) :
    (a.refreshLoop (rounds + 1)).app = (a.load.1.refreshLoop rounds).app ∧
      (a.refreshLoop (rounds + 1)).next = (a.load.1.refreshLoop rounds).next ∧
      (a.refreshLoop (rounds + 1)).events =
        .wait a.refresh :: a.refreshOnce.events ++ (a.load.1.refreshLoop rounds).events := by
  rw [refreshLoop, app_refreshOnce]
  split
  · next f text hdied => exact absurd ((refreshOnce_died_iff a).mp hdied) (h f text)
  · exact ⟨rfl, rfl, rfl⟩

/-- The refresh loop dies in the first round that a fault strikes. -/
lemma refreshLoop_died_iff (a : App) (rounds : ℕ) :
    (a.refreshLoop rounds).next = .died f text ↔
      ∃ i < rounds, (a.loaded i).Stricken f text ∧
        ∀ j < i, ∀ g said, ¬ (a.loaded j).Stricken g said := by
  induction rounds generalizing a with
  | zero => exact iff_of_false (by rintro ⟨⟩) fun ⟨i, hi, _⟩ => Nat.not_lt_zero i hi
  | succ rounds ih =>
    -- a fault in the first round keeps the others from being run, whatever it is
    by_cases hfirst : ∃ g said, a.Stricken g said
    · obtain ⟨g, said, hstruck⟩ := hfirst
      rw [(refreshLoop_of_stricken hstruck rounds).2]
      constructor
      · rintro ⟨⟩
        exact ⟨0, Nat.succ_pos _, hstruck, fun j hj => absurd hj (Nat.not_lt_zero j)⟩
      · rintro ⟨i, -, hi, hbefore⟩
        cases i with
        | zero =>
          rw [← (refreshLoop_of_stricken hstruck 0).2]
          exact (refreshLoop_of_stricken hi 0).2
        | succ i => exact absurd hstruck (hbefore 0 (Nat.succ_pos i) g said)
    · simp only [not_exists] at hfirst
      rw [(refreshLoop_of_spared hfirst rounds).2.1, ih]
      constructor
      · rintro ⟨i, hi, hstruck, hbefore⟩
        refine ⟨i + 1, by omega, hstruck, fun j hj => ?_⟩
        cases j with
        | zero => exact hfirst
        | succ j => exact hbefore j (by omega)
      · rintro ⟨i, hi, hstruck, hbefore⟩
        cases i with
        | zero => exact absurd hstruck (hfirst f text)
        | succ i => exact ⟨i, by omega, hstruck, fun j hj => hbefore (j + 1) (by omega)⟩

lemma refresh_load (a : App) : a.load.1.refresh = a.refresh := by
  rw [load]
  split <;> rfl

lemma refreshOnce_warns (h : a.askList.result = .error (.fetch e)) :
    a.refreshOnce.events.getLast? = some (.logged Level.warning
      ("ContainersBrowser._refresh_loop(): refresh failed: ".toList ++ e.message)) := by
  rw [← result_load] at h
  rw [refreshOnce]
  split <;> next heq =>
    rw [heq] at h
    cases h <;> exact List.getLast?_concat

/-- The refresh loop that no fault strikes goes through all its rounds. -/
lemma refreshLoop_of_all_spared {rounds : ℕ}
    (h : ∀ i < rounds, ∀ f text, ¬ (a.loaded i).Stricken f text) :
    (a.refreshLoop rounds).next = .list ∧
      (a.refreshLoop rounds).events = (List.range rounds).flatMap
        (fun i => .wait a.refresh :: (a.loaded i).refreshOnce.events) ++ [.wait a.refresh] := by
  induction rounds generalizing a with
  | zero => exact ⟨rfl, rfl⟩
  | succ rounds ih =>
    obtain ⟨-, hnext, hevents⟩ :=
      refreshLoop_of_spared (a := a) (h 0 (Nat.succ_pos rounds)) rounds
    obtain ⟨hlast, hrest⟩ := ih (a := a.load.1) fun i hi => h (i + 1) (by omega)
    refine ⟨hnext.trans hlast, ?_⟩
    rw [hevents, hrest, refresh_load, List.range_succ_eq_map, List.flatMap_cons, List.flatMap_map,
      List.append_assoc]
    rfl

namespace Run

variable {r : Run}

/-- Keys go to the list, and neither to a prompt nor to a page. -/
def Listens (r : Run) : Prop :=
  match r.waiting with
  | .prompt _ | .page => False
  | _ => True

/-- A fault strikes what the program asks the daemon for when the key is hit. -/
def Struck (r : Run) (f : Fault) (text : Text) (key : Int) : Prop :=
  r.Listens ∧ ∃ c q, Command.ofKey key = some c ∧ q ∈ r.app.ask? c ∧ r.app.Struck q f text

/-- A fault strikes one of so many rounds of the refresh loop, which runs until then. -/
def StruckBeside (r : Run) (f : Fault) (text : Text) (rounds : ℕ) : Prop :=
  r.fallen = none ∧ ∃ i < rounds, (r.app.loaded i).Stricken f text ∧
    ∀ j < i, ∀ g said, ¬ (r.app.loaded j).Stricken g said

lemma struck_of_list (hlist : r.waiting = .list) {key : Int} {c : Command} {q : Asked}
    (hkey : Command.ofKey key = some c) (hq : q ∈ r.app.ask? c) (h : r.app.Struck q f text) :
    r.Struck f text key := by
  refine ⟨?_, c, q, hkey, hq, h⟩
  rw [Listens, hlist]
  trivial

lemma turn_died_iff (r : Run) (key : Int) :
    (r.turn key).next = .died f text ↔ r.Struck f text key := by
  rw [turn, Struck, Listens]
  cases r.waiting with
  | prompt p =>
    refine iff_of_false ?_ fun h => h.1.elim
    show (r.app.pressPrompt p key).next ≠ _
    rw [pressPrompt]
    split <;> rintro ⟨⟩
  | page => exact iff_of_false (by rintro ⟨⟩) fun h => h.1.elim
  | _ => exact (pressList_died_iff r.app key).trans (iff_of_eq (true_and _)).symm

lemma ending_proceed_died_iff (hgoing : r.ending = none) (turn : Turn) :
    (r.proceed turn).ending = some (.died f text) ↔ turn.next = .died f text := by
  rw [proceed]
  cases turn.next <;> simp [hgoing]

lemma ending_press_died_iff (hgoing : r.ending = none) (key : Int) :
    (r.press key).ending = some (.died f text) ↔ r.Struck f text key := by
  rw [press_eq, ending_proceed_died_iff ((r.ending_close key).trans hgoing), turn_died_iff]

/-- What happens ends the program in a fault exactly if it is a key and that fault strikes what is
asked for. -/
lemma ending_step_died_iff (hgoing : r.ending = none) (x : Happening) :
    (r.step x).ending = some (.died f text) ↔ ∃ key, x = .key key ∧ r.Struck f text key := by
  have hnone : ¬ r.ending = some (.died f text) := by
    rw [hgoing]
    rintro ⟨⟩
  cases x with
  | key key =>
    rw [step_key hgoing, ending_press_died_iff hgoing]
    simp
  | resize size =>
    -- the key that tells of it is no command
    rw [step_resize hgoing]
    refine (ending_press_died_iff (r := { r with app := { r.app with size := size } }) hgoing
      410).trans (iff_of_false ?_ (by rintro ⟨key, ⟨⟩, -⟩))
    rintro ⟨-, c, q, ⟨⟩, -⟩
  | refresh rounds =>
    rw [step_refresh hgoing, (r.refreshed_keeps rounds).2.2.2]
    exact iff_of_false hnone (by rintro ⟨key, ⟨⟩, -⟩)
  | _ =>
    unfold step
    rw [if_neg (by rw [hgoing]; rintro ⟨⟩)]
    exact iff_of_false hnone (by rintro ⟨key, ⟨⟩, -⟩)

lemma fallen_press (r : Run) (key : Int) : (r.press key).fallen = r.fallen := by
  have hclose : (r.close key).fallen = r.fallen := by
    rw [close]
    split <;> rfl
  rw [press_eq, ← hclose, proceed]
  cases (r.turn key).next <;> rfl

lemma fallen_step_of_other {x : Happening} (hx : ∀ rounds, x ≠ .refresh rounds) :
    (r.step x).fallen = r.fallen := by
  unfold step
  split
  · rfl
  · cases x with
    | key key => exact fallen_press r key
    | resize size => exact fallen_press _ 410
    | refresh rounds => exact absurd rfl (hx rounds)
    | _ => rfl

/-- What happens ends the refresh loop exactly if rounds of it are run and a fault strikes one. -/
lemma fallen_step_iff (hgoing : r.ending = none) (halive : r.fallen = none) (x : Happening) :
    (r.step x).fallen = some (f, text) ↔ ∃ rounds, x = .refresh rounds ∧
      r.StruckBeside f text rounds := by
  cases x with
  | refresh rounds =>
    rw [step_refresh hgoing, refreshed_of_alive halive]
    simp only [Happening.refresh.injEq, exists_eq_left', StruckBeside, halive, true_and,
      ← refreshLoop_died_iff]
    cases (r.app.refreshLoop rounds).next <;> simp
  | _ =>
    rw [fallen_step_of_other (by rintro rounds ⟨⟩), halive]
    exact iff_of_false (by rintro ⟨⟩) (by rintro ⟨rounds, ⟨⟩, -⟩)

/-- A refresh loop that has ended does not come back. -/
lemma fallen_step_of_fallen {fault : Fault × Text} (h : r.fallen = some fault) (x : Happening) :
    (r.step x).fallen = some fault := by
  cases x with
  | refresh rounds =>
    unfold step
    split
    · exact h
    · show (r.refreshed rounds).fallen = _
      rw [refreshed_of_fallen (by simp [h]), h]
  | _ => rw [fallen_step_of_other (by rintro rounds ⟨⟩), h]

lemma fallen_run_of_fallen {fault : Fault × Text} (h : r.fallen = some fault)
    (script : List Happening) : (script.foldl step r).fallen = some fault := by
  induction script generalizing r with
  | nil => exact h
  | cons x script ih => exact ih (fallen_step_of_fallen h x)

lemma spared_of_not_struck (halive : r.fallen = none) {rounds : ℕ}
    (h : ∀ f text, ¬ r.StruckBeside f text rounds) :
    ∀ i < rounds, ∀ f text, ¬ (r.app.loaded i).Stricken f text := by
  intro i hi
  induction i using Nat.strong_induction_on with
  | _ i ih =>
    intro f text hstruck
    exact h f text ⟨halive, i, hi, hstruck, fun j hj => ih j hj (by omega)⟩

/-- Rounds that no fault strikes are all run, and the loop goes on. -/
lemma refreshed_of_spared (halive : r.fallen = none) {rounds : ℕ}
    (h : ∀ i < rounds, ∀ f text, ¬ (r.app.loaded i).Stricken f text) :
    (r.refreshed rounds).fallen = none ∧
      (r.refreshed rounds).since = r.since ++ (List.range rounds).flatMap
        (fun i => .wait r.app.refresh :: (r.app.loaded i).refreshOnce.events) ++
          [.wait r.app.refresh] := by
  obtain ⟨hnext, hevents⟩ := refreshLoop_of_all_spared h
  rw [refreshed_of_alive halive]
  simp only [hnext, hevents, List.append_assoc, and_self]

lemma since_prefix (hblank : r.shown = none) {turn : Turn} {g : Frame}
    (hg : (r.proceed turn).shown = some g) : r.since <+: g.events := by
  rw [proceed] at hg
  cases hnext : turn.next with
  | quit => rw [hnext] at hg; cases hg
  | died =>
    rw [hnext] at hg
    rw [show r.shown = some g from hg] at hblank
    cases hblank
  | _ =>
    rw [hnext] at hg
    cases hg
    rw [List.append_assoc]
    exact List.prefix_append _ _

/-! ### Whole runs -/

lemma run_of_ended (h : r.ending.isSome) (script : List Happening) : script.foldl step r = r := by
  induction script with
  | nil => rfl
  | cons x script ih =>
    rw [List.foldl_cons, step_of_ended h, ih]

end Run

lemma going_running_nil (hstarted : (a.launch pattern).ending = none) (colours : Bool) :
    (a.running pattern colours []).ending = none := by
  show (takeScreen colours (a.launch pattern)).ending = none
  rw [takeScreen, hstarted]
  exact hstarted

lemma fallen_running_nil (a : App) (pattern : Text) (colours : Bool) :
    (a.running pattern colours []).fallen = none := by
  have hlaunched : (a.launch pattern).fallen = none := by
    rw [launch]
    simp only
    split <;> rfl
  show (takeScreen colours (a.launch pattern)).fallen = none
  rw [takeScreen]
  split
  · exact hlaunched
  · exact hlaunched

section Runs

variable {pattern : Text} {colours : Bool} {script : List Happening}

/-- Only while the program goes on does anything come about. -/
lemma going_of_step {r : Run} {p : Run → Prop} {x : Happening} (hbefore : ¬ p r)
    (h : p (r.step x)) : r.ending = none := by
  cases hending : r.ending with
  | none => rfl
  | some ending =>
    rw [Run.step_of_ended (by rw [hending]; rfl)] at h
    exact absurd h hbefore

/-- What is so at the end and was not at the start has come about by something that happened while
the program went on. -/
lemma exists_step_of_running (p : Run → Prop) (hstart : ¬ p (a.running pattern colours []))
    (h : p (a.running pattern colours script)) :
    ∃ before x after, script = before ++ x :: after ∧
      (a.running pattern colours before).ending = none ∧
      ¬ p (a.running pattern colours before) ∧ p ((a.running pattern colours before).step x) := by
  induction script using List.reverseRecOn with
  | nil => exact absurd h hstart
  | append_singleton script x ih =>
    by_cases hbefore : p (a.running pattern colours script)
    · obtain ⟨before, y, after, rfl, hy⟩ := ih hbefore
      exact ⟨before, y, after ++ [x], by simp, hy⟩
    · rw [running_append] at h
      exact ⟨script, x, [], rfl, going_of_step hbefore h, hbefore, h⟩

lemma struck_of_died (hstarted : (a.launch pattern).ending = none)
    (h : (a.running pattern colours script).ending = some (.died f text)) :
    ∃ before key after, script = before ++ .key key :: after ∧
      (a.running pattern colours before).ending = none ∧
      (a.running pattern colours before).Struck f text key := by
  have hstart : ¬ (a.running pattern colours []).ending = some (.died f text) := by
    rw [going_running_nil hstarted]
    rintro ⟨⟩
  obtain ⟨before, x, after, rfl, hgoing, -, hstep⟩ :=
    exists_step_of_running (fun r => r.ending = some (.died f text)) hstart h
  obtain ⟨key, rfl, hstruck⟩ := (Run.ending_step_died_iff hgoing x).mp hstep
  exact ⟨before, key, after, rfl, hgoing, hstruck⟩

lemma died_of_struck {before after : List Happening} {key : Int}
    (hgoing : (a.running pattern colours before).ending = none)
    (h : (a.running pattern colours before).Struck f text key) :
    (a.running pattern colours (before ++ .key key :: after)).ending = some (.died f text) := by
  have hdied := (Run.ending_step_died_iff hgoing (.key key)).mpr ⟨key, rfl, h⟩
  rw [running_append, List.foldl_cons, Run.run_of_ended (by rw [hdied]; rfl), hdied]

lemma struckBeside_of_fallen (h : (a.running pattern colours script).fallen = some (f, text)) :
    ∃ before rounds after, script = before ++ .refresh rounds :: after ∧
      (a.running pattern colours before).ending = none ∧
      (a.running pattern colours before).StruckBeside f text rounds := by
  have hstart : ¬ (a.running pattern colours []).fallen = some (f, text) := by
    rw [fallen_running_nil]
    rintro ⟨⟩
  obtain ⟨before, x, after, rfl, hgoing, hbefore, hstep⟩ :=
    exists_step_of_running (fun r => r.fallen = some (f, text)) hstart h
  have halive : (a.running pattern colours before).fallen = none := by
    cases hfallen : (a.running pattern colours before).fallen with
    | none => rfl
    | some fault =>
      rw [Run.fallen_step_of_fallen hfallen] at hstep
      exact absurd (hfallen.trans hstep) hbefore
  obtain ⟨rounds, rfl, hstruck⟩ := (Run.fallen_step_iff hgoing halive x).mp hstep
  exact ⟨before, rounds, after, rfl, hgoing, hstruck⟩

lemma fallen_of_struckBeside {before after : List Happening} {rounds : ℕ}
    (hgoing : (a.running pattern colours before).ending = none)
    (h : (a.running pattern colours before).StruckBeside f text rounds) :
    (a.running pattern colours (before ++ .refresh rounds :: after)).fallen = some (f, text) := by
  have hfallen := (Run.fallen_step_iff hgoing h.1 (.refresh rounds)).mpr ⟨rounds, rfl, h⟩
  rw [running_append, List.foldl_cons, Run.fallen_run_of_fallen hfallen]

end Runs

lemma ending_run_died_iff (a : App) (pattern : Text) (colours : Bool) (script : List Happening) :
    (a.run pattern colours script).ending = some (.died f text) ↔
      (a.running pattern colours script).ending = some (.died f text) := by
  show (a.running pattern colours script).finish.ending = _ ↔ _
  rw [Run.finish]
  split <;> next h => simp [h]

lemma fallen_run (a : App) (pattern : Text) (colours : Bool) (script : List Happening) :
    (a.run pattern colours script).fallen = (a.running pattern colours script).fallen := by
  show (a.running pattern colours script).finish.fallen = _
  rw [Run.finish]
  split <;> rfl

/-! ### What the next frame shows -/

/-- The frame has the message in its help bar, as far as there is room, or the keys if there is no
message. The help bar is the last text that is put on the screen. -/
structure Frame.Tells (f : Frame) (message : Text) : Prop where
  held : f.app.message = message
  drawn : 1 ≤ f.app.size.columns → ∃ before attr,
    let width := (f.app.size.columns - 1).toNat
    let bar := HelpBar.bar f.app.table.selected f.app.table.shown.length message width
    f.events = before ++ [.screen (.addText (f.app.size.rows - 1) 0 bar attr), .screen .refresh,
        .screen (.waitAtMost 1000)] ∧
      bar.length = width ∧ (HelpBar.subject message).take width <+: bar

lemma Frame.Drawn.tells {f : Frame} (h : f.Drawn) : f.Tells f.app.message := by
  refine ⟨rfl, fun hcolumns => ?_⟩
  obtain ⟨a, before, happ, hevents⟩ := h
  obtain ⟨painted, hcalls⟩ : ∃ painted, a.drawList.2 = painted ++
      HelpBar.draw a.size a.theme a.drawList.1.table.selected a.drawList.1.table.shown.length
        a.message ++ [.refresh, .waitAtMost 1000] := ⟨_, rfl⟩
  have hsize : f.app.size = a.size := by rw [happ]; rfl
  have hmessage : f.app.message = a.message := by rw [happ]; rfl
  obtain ⟨attr, hbar⟩ := HelpBar.draw_eq (hsize ▸ hcolumns) a.theme a.drawList.1.table.selected
    a.drawList.1.table.shown.length a.message
  refine ⟨before ++ painted.map .screen, attr, ?_, HelpBar.length_bar _ _ _ _,
    HelpBar.prefix_bar _ _ _ _⟩
  rw [hevents, hcalls, hbar, hsize, hmessage, happ]
  simp only [List.map_append, List.append_assoc]
  rfl

/-- All that the table has to draw is text. -/
def Legible (a : App) : Prop := ∀ row ∈ a.table.rows, row.container.legible

instance : DecidablePred Legible := fun a =>
  inferInstanceAs (Decidable (∀ row ∈ a.table.rows, row.container.legible))

lemma legible_iff_bare {t : Table} :
    (∀ row ∈ t.rows, row.container.legible) ↔
      ∀ row ∈ t.rows.map Row.bare, row.container.legible := by
  rw [List.forall_mem_map]
  rfl

lemma legible_of_rows {b : App} (h : b.table.rows = a.table.rows) (ha : a.Legible) : b.Legible :=
  fun row hrow => ha row (h ▸ hrow)

/-- A drawing of the list has no rows but those that were there. -/
lemma legible_drawList (h : a.Legible) : a.drawList.1.Legible := by
  have hlaid : ∀ row ∈ a.layout.table.rows, row.container.legible := by
    intro row hrow
    obtain ⟨s, hs, rfl⟩ := List.mem_map.mp hrow
    exact h s hs
  show ∀ row ∈ (a.layout.table.render a.cursor).1.rows, row.container.legible
  by_cases hmounted : a.layout.table.mounted
  · rw [legible_iff_bare, Table.bare_render hmounted]
    exact fun row hrow => legible_iff_bare.mp hlaid row ((Rows.sort_perm _ _).mem_iff.mp hrow)
  · rw [Table.render_of_not_mounted hmounted]
    exact hlaid

/-- When no key is hit in time, the list is drawn again. -/
lemma Run.at_silence {r : Run} (hgoing : r.ending = none) (hlist : r.waiting = .list)
    (hlegible : r.app.Legible) :
    ∃ g, (r.step (.key (-1))).At g ∧ g.app.Legible ∧ r.since <+: g.events := by
  have hturn : r.turn (-1) = { app := r.app } := by
    rw [turn, hlist]
    rfl
  have hnext : (r.turn (-1)).next = .list := by rw [hturn]
  obtain ⟨g, hg, happ⟩ := at_key hgoing hnext
  have hshown := hg.shown
  rw [step_key hgoing, press_eq] at hshown
  refine ⟨g, hg, ?_, since_close r (-1) ▸ since_prefix (r.shown_close (-1)) hshown⟩
  rw [happ, hturn]
  exact legible_drawList hlegible

/-- **Failures**: past its start, a run ends in a fault exactly where that fault strikes what a key
makes the program ask the daemon for, as long as all that the table has is text. Any other failure of
a command is told in the help bar of the next frame. A fault that strikes a round of the refresh loop
ends the loop and nothing else. Any other failure there is logged as the last thing of its round, and
the other rounds follow. Whatever comes of the rounds, the program waits as before, and its next frame
is drawn. -/
theorem ends_in_fault_iff_struck (a : App) (pattern : Text) (colours : Bool)
    (hstarted : (a.launch pattern).ending = none) (script : List Happening)
    (hlegible : ∀ before, before <+: script → (a.running pattern colours before).app.Legible) :
    let r := a.running pattern colours script
    (∀ f text, (a.run pattern colours script).ending = some (.died f text) ↔
        ∃ before key after, script = before ++ .key key :: after ∧
          (a.running pattern colours before).ending = none ∧
          (a.running pattern colours before).Struck f text key) ∧
      (∀ f text, (a.run pattern colours script).fallen = some (f, text) ↔
        ∃ before rounds after, script = before ++ .refresh rounds :: after ∧
          (a.running pattern colours before).ending = none ∧
          (a.running pattern colours before).StruckBeside f text rounds) ∧
      (r.ending = none → r.waiting = .list → ∀ key c q, Command.ofKey key = some c →
        q ∈ r.app.ask? c → q.result ≠ .ok () → (∀ f text, ¬ r.Struck f text key) →
        ∃ e g, q.result = .error (.fetch e) ∧ (r.step (.key key)).At g ∧ g.app.Legible ∧
          g.Tells (c.complaint e)) ∧
      (r.ending = none → ∀ rounds,
        let s := r.step (.refresh rounds)
        (s.ending = none ∧ s.waiting = r.waiting ∧ s.shown = r.shown) ∧
          (r.waiting = .list → s.app.Legible →
            ∃ g, (s.step (.key (-1))).At g ∧ g.app.Legible ∧ s.since <+: g.events) ∧
          (r.fallen = none → (∀ f text, ¬ r.StruckBeside f text rounds) →
            s.fallen = none ∧ ∃ round : ℕ → List Event,
              s.since = r.since ++ (List.range rounds).flatMap round ++ [.wait r.app.refresh] ∧
              ∀ i < rounds, (r.app.loaded i).askList.result ≠ .ok () →
                ∃ e, (r.app.loaded i).askList.result = .error (.fetch e) ∧
                  (round i).getLast? = some (.log ⟨Level.warning,
                    "ContainersBrowser._refresh_loop(): refresh failed: ".toList ++
                      e.message⟩))) := by
  intro r
  have hplain : r.app.Legible := hlegible script (List.prefix_refl script)
  refine ⟨fun f text => ⟨fun h => ?_, ?_⟩, fun f text => ⟨fun h => ?_, ?_⟩,
    fun hgoing hlist key c q hkey hq hfailed hspared => ?_, fun hgoing rounds => ?_⟩
  · exact struck_of_died hstarted ((ending_run_died_iff a pattern colours script).mp h)
  · rintro ⟨before, key, after, rfl, hgoing, hstruck⟩
    exact (ending_run_died_iff a pattern colours _).mpr (died_of_struck hgoing hstruck)
  · exact struckBeside_of_fallen ((fallen_run a pattern colours script).symm.trans h)
  · rintro ⟨before, rounds, after, rfl, hgoing, hstruck⟩
    exact (fallen_run a pattern colours _).trans (fallen_of_struckBeside hgoing hstruck)
  · obtain ⟨e, he⟩ : ∃ e, q.result = .error (.fetch e) := by
      refine exists_fetch hfailed fun f text hfault => hspared f text ?_
      exact Run.struck_of_list hlist hkey hq ((ask?_fault_iff hq).mp hfault)
    have hturn := Run.turn_of_command hlist hkey
    obtain ⟨hnext, hmessage, hrows⟩ := command_of_fetch (a := { r.app with message := [] })
      ((ask?_cleared r.app c).symm ▸ hq) he
    rw [← hturn] at hnext hmessage hrows
    obtain ⟨g, hg, happ⟩ := Run.at_key hgoing hnext
    have hdrawn : g.Drawn :=
      hg.drawn (Run.pictures_step (pictures_running a pattern colours script) (.key key))
    have htold : g.app.message = c.complaint e := by
      rw [happ]
      exact hmessage
    refine ⟨e, g, he, hg, ?_, htold ▸ hdrawn.tells⟩
    rw [happ]
    exact legible_drawList (legible_of_rows hrows hplain)
  · have hstep : r.step (.refresh rounds) = r.refreshed rounds := Run.step_refresh hgoing rounds
    obtain ⟨hwaiting, -, hshown, hending⟩ := r.refreshed_keeps rounds
    rw [hstep]
    refine ⟨⟨hending.trans hgoing, hwaiting, hshown⟩, fun hlist hnew => ?_,
      fun halive hspared => ?_⟩
    · exact Run.at_silence (hending.trans hgoing) (hwaiting.trans hlist) hnew
    · have hrounds := Run.spared_of_not_struck halive hspared
      obtain ⟨hstill, hsince⟩ := Run.refreshed_of_spared halive hrounds
      refine ⟨hstill, _, hsince, fun i hi hfailed => ?_⟩
      obtain ⟨e, he⟩ := exists_fetch hfailed fun f text hfault =>
        hrounds i hi f text ((askList_fault_iff _).mp hfault)
      refine ⟨e, he, ?_⟩
      rw [List.getLast?_cons, refreshOnce_warns he]
      rfl

/-- A daemon that refuses a reload is told of in the help bar. One whose answer to it breaks off, or
lists something that is no container, ends the program. If that is the answer to the refresh loop,
only the loop ends. -/
theorem ends_in_fault_when_broken_off :
    let a := App.start { host := ['h'] } { containers := [.obj [("Id".toList, .str ['a'])]] }
      ⟨6, 40⟩ 1 true
    let refused : List Happening := [.outcomes [.answered 500 "Oops".toList (.json .null)]]
    let broken : List Happening := [.outcomes [.failed .chunkedEncodingError []]]
    let odd : List Happening := [.outcomes [.answered 200 "OK".toList (.json (.arr [.null]))]]
    ((a.launch []).ending = none ∧
      ∀ script ∈ [refused, broken ++ [.key 269], broken ++ [.refresh 1], odd ++ [.key 269]],
        ∀ before, before <+: script → (a.running [] true before).app.Legible) ∧
      (∃ g, ((a.running [] true refused).step (.key 269)).At g ∧
        g.Tells "Refresh failed: HTTP 500 Oops for h/containers/json".toList) ∧
      ((a.run [] true (broken ++ [.key 269])).ending = some (.died .chunkedEncodingError []) ∧
        (a.run [] true (broken ++ [.refresh 1])).fallen = some (.chunkedEncodingError, [])) ∧
      (a.run [] true (odd ++ [.key 269])).ending =
        some (.died .attributeError "'NoneType' object has no attribute 'get'".toList) := by
  intro a refused broken odd
  have hstarted : (a.launch []).ending = none := by decide +kernel
  have hinits : ∀ script ∈ [refused, broken ++ [.key 269], broken ++ [.refresh 1],
      odd ++ [.key 269]], ∀ before ∈ script.inits, (a.running [] true before).app.Legible := by
    decide +kernel
  have hlegible : ∀ script ∈ [refused, broken ++ [.key 269], broken ++ [.refresh 1],
      odd ++ [.key 269]], ∀ before, before <+: script → (a.running [] true before).app.Legible :=
    fun script hscript before hbefore =>
      hinits script hscript before ((List.mem_inits _ _).mpr hbefore)
  have hthm (script) (h) := ends_in_fault_iff_struck a [] true hstarted script (hlegible script h)
  have houtcome (o : Outcome) (r : Request) :
      (a.running [] true [.outcomes [o]]).app.network.outcome r 0 = o := by
    have hnone : (a.running [] true []).app.network.queue = [] :=
      List.isEmpty_iff.mp (by decide +kernel)
    have hqueue : (a.running [] true [.outcomes [o]]).app.network.queue =
        (a.running [] true []).app.network.queue ++ [o] := by
      show ((a.running [] true []).step (.outcomes [o])).app.network.queue = _
      rw [Run.step, going_running_nil hstarted]
      rfl
    rw [Network.outcome, hqueue, hnone]
    rfl
  have hfirst {p : ℕ → Prop} : ∀ i < 0, p i := fun i hi => absurd hi (Nat.not_lt_zero i)
  refine ⟨⟨hstarted, hlegible⟩, ?_, ?_, ?_⟩
  · have hgoing : (a.running [] true refused).ending = none := by decide +kernel
    have hstill : ((a.running [] true refused).step (.key 269)).ending = none := by decide +kernel
    have hresult : (a.running [] true refused).app.askList.result = .error (.fetch
        (.refused 500 "Oops".toList "h/containers/json".toList ["500 Oops".toList])) := by
      decide +kernel
    obtain ⟨e, g, he, hg, -, htells⟩ := (hthm refused (by simp)).2.2.1
      hgoing (by decide +kernel) 269 .reload _ rfl rfl (by rw [hresult]; rintro ⟨⟩) (by
        intro f text h
        have hdied := (Run.ending_step_died_iff hgoing (.key 269)).mpr ⟨269, rfl, h⟩
        rw [hstill] at hdied
        cases hdied)
    rw [hresult] at he
    cases he
    exact ⟨g, hg, htells⟩
  · have hbroken : (a.running [] true broken).app.Struck (a.running [] true broken).app.askList
        .chunkedEncodingError [] := by
      refine .inl ⟨0, by decide +kernel, hfirst, ?_⟩
      show Daemon.Breaks _ _ _ ((a.running [] true broken).app.network.outcome _ 0) _ _
      rw [houtcome]
      exact .passed rfl
    have hlist : (a.running [] true broken).waiting = .list := by decide +kernel
    have hgoing : (a.running [] true broken).ending = none := by decide +kernel
    have halive : (a.running [] true broken).fallen = none := by decide +kernel
    have hdied := (hthm (broken ++ [.key 269]) (by simp)).1 .chunkedEncodingError []
    have hfell := (hthm (broken ++ [.refresh 1]) (by simp)).2.1 .chunkedEncodingError []
    exact ⟨hdied.mpr ⟨broken, 269, [], rfl, hgoing,
        Run.struck_of_list (c := .reload) hlist rfl rfl hbroken⟩,
      hfell.mpr ⟨broken, 1, [], rfl, hgoing, halive, 0, by decide, hbroken, hfirst⟩⟩
  · have hodd : (a.running [] true odd).app.Struck (a.running [] true odd).app.askList
        .attributeError "'NoneType' object has no attribute 'get'".toList :=
      .inr ⟨.arr [.null], ⟨0, by decide +kernel, hfirst, 200, "OK".toList, houtcome _ _,
        by decide +kernel⟩, rfl⟩
    have hlist : (a.running [] true odd).waiting = .list := by decide +kernel
    have hgoing : (a.running [] true odd).ending = none := by decide +kernel
    have hdied := (hthm (odd ++ [.key 269]) (by simp)).1 .attributeError
      "'NoneType' object has no attribute 'get'".toList
    exact hdied.mpr ⟨odd, 269, [], rfl, hgoing,
      Run.struck_of_list (c := .reload) hlist rfl rfl hodd⟩

/-- The answer to a reload breaks off, which is neither a lack of connection or time nor an answer
that cannot be read, and the program ends. -/
theorem not_every_failure_survived :
    ¬ ∀ (daemon : Daemon) (network : Network) (size : ScreenSize) (refresh : Float) (showAll : Bool)
      (pattern : Text) (colours : Bool) (script : List Happening),
      ((start daemon network size refresh showAll).launch pattern).ending = none →
      ∀ f text, ((start daemon network size refresh showAll).run pattern colours script).ending ≠
        some (.died f text) := by
  intro h
  exact h { host := [] } {} ⟨6, 40⟩ 1 true [] true
    [.outcomes [.failed .chunkedEncodingError []], .key 269] (by decide +kernel)
    .chunkedEncodingError [] (by decide +kernel)

end App

end DockConsole
