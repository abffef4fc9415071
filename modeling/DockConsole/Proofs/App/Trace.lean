import DockConsole.App.Run
import DockConsole.Proofs.Table.History

/-!
A run of the program as a session of its table.

Whatever happens to the program is a few steps of its table and cursor, and what the program holds
is what these steps make of those it started with. So a run has the history of that session: the
answer of its last load, and the orders of the frames since.
-/

namespace DockConsole.App

open Table (Session Step History)

/-! ### What the program does to its table -/

/-- The containers that a load brings, if it succeeds. -/
def answer? (a : App) : Option (List Container) :=
  match (a.daemon.list a.table.selections a.table.sortMode a.network).result.bind containers with
  | .ok listed => some listed
  | .error _ => none

def loadSteps (a : App) : List Step :=
  match a.answer? with
  | some containers => [.supply containers, .fail none, .remount]
  | none => [.fail (some ⟨[], []⟩), .remount]

/-- A round that dies is the last one. -/
def refreshSteps (a : App) : ℕ → List Step
  | 0 => []
  | rounds + 1 =>
    a.loadSteps ++
      match a.refreshOnce.next with
      | .died _ _ => []
      | _ => a.refreshOnce.app.refreshSteps rounds

def moveStep (a : App) (m : Motion) : Step :=
  let last : Int := (a.table.shown.length - 1 : ℕ)
  let page := max 1 a.table.height
  match m with
  | .up => .cursorMove (-1) last
  | .down => .cursorMove 1 last
  | .pageDown => .cursorMove page last
  | .pageUp => .cursorMove (-page) last
  | .first => .cursorHome
  | .last => .cursorToLast last

def inspectSteps (a : App) : List Step :=
  match a.registry.get? Table.source with
  | none => []
  | some _ => [.dispatch .tell]

def commandSteps (a : App) : Command → List Step
  | .move m => [a.moveStep m]
  | .inspect => a.inspectSteps
  | .rotateSort => [.sort]
  | .clearFilter => [.filter none, .cursorHome]
  | .toggleShowAll =>
    .toggleShowAll :: .cursorHome ::
      { a with table := a.table.toggleShowAll, cursor := a.cursor.home }.loadSteps
  | .reload => a.loadSteps
  | .editFilter | .help | .quit => []

def listSteps (a : App) (key : Int) : List Step :=
  if key = -1 then []
  else
    match Command.ofKey key with
    | none => []
    | some c => { a with message := [] }.commandSteps c

def promptSteps (p : Prompt) (key : Int) : List Step :=
  match p.press key with
  | .accepted text => [.filter (some text), .cursorHome]
  | _ => []

/-- A frame of the list lays the table out and draws it. -/
def awaitSteps (a : App) : Next → List Step
  | .list => [.resize 0 0 (max 0 (a.size.columns - 1)) (a.size.rows - 3), .render]
  | _ => []

/-- The program once the filter that it starts with is set. -/
def prepared (a : App) (pattern : Text) : App :=
  if pattern.isEmpty then a else (a.filter pattern).1

def launchSteps (a : App) (pattern : Text) : List Step :=
  (if pattern.isEmpty then [] else [.filter (some pattern)]) ++ (a.prepared pattern).loadSteps

namespace Run

/-- What a key does, wherever it is hit. -/
def turn (r : Run) (key : Int) : Turn :=
  match r.waiting with
  | .prompt p => r.app.pressPrompt p key
  | .page => { app := r.app }
  | _ => r.app.pressList key

def turnSteps (r : Run) (key : Int) : List Step :=
  match r.waiting with
  | .prompt p => promptSteps p key
  | .page => []
  | _ => r.app.listSteps key

def pressSteps (r : Run) (key : Int) : List Step :=
  r.turnSteps key ++ (r.turn key).app.awaitSteps (r.turn key).next

def steps (r : Run) (h : Happening) : List Step :=
  if r.ending.isSome then []
  else
    match h with
    | .key key => r.pressSteps key
    | .resize size => { r with app := { r.app with size := size } }.pressSteps 410
    | .refresh rounds => if r.fallen.isSome then [] else r.app.refreshSteps rounds
    | .containers _ | .outcomes _ | .unregister _ => []

def trace (r : Run) : List Happening → List Step
  | [] => []
  | h :: script => r.steps h ++ (r.step h).trace script

end Run

/-- The program at the end of a script, which may still be waiting. -/
def running (a : App) (pattern : Text) (colours : Bool) (script : List Happening) : Run :=
  script.foldl Run.step (takeScreen colours (a.launch pattern))

lemma running_append (a : App) (pattern : Text) (colours : Bool) (script waited : List Happening) :
    a.running pattern colours (script ++ waited) =
      waited.foldl Run.step (a.running pattern colours script) := List.foldl_append

/-- All that happens to the table of the program, from its first load on. -/
def trace (a : App) (pattern : Text) (colours : Bool) (script : List Happening) : List Step :=
  let launched := a.launch pattern
  let taken := takeScreen colours launched
  a.launchSteps pattern ++
    (if launched.ending.isSome then [] else launched.app.awaitSteps .list) ++ taken.trace script

/-- The table and cursor of the program, in use. -/
def session (a : App) : Session := { table := a.table, cursor := a.cursor }

def history (a : App) (pattern : Text) (colours : Bool) (script : List Happening) : History :=
  History.run {} a.session (a.trace pattern colours script)

/-- The session has the table and the cursor of the program. -/
structure Shows (s : Session) (a : App) : Prop where
  table : s.table = a.table
  cursor : s.cursor = a.cursor

/-! ### Each step keeps up with the program -/

variable {s : Session} {a : App}

lemma shows_load (hs : Shows s a) : Shows (s.run a.loadSteps) a.load.1 := by
  rcases h : (a.daemon.list a.table.selections a.table.sortMode a.network).result.bind containers
    with t | listed
  · simp only [loadSteps, answer?, load, h]
    exact ⟨hs.table, hs.cursor⟩
  · simp only [loadSteps, answer?, load, h]
    exact ⟨congrArg (Table.load · _) hs.table, hs.cursor⟩

/-- A reload only adds a message to what a load does. -/
lemma shows_reload (hs : Shows s a) : Shows (s.run a.loadSteps) a.reload.app := by
  have hload := shows_load hs
  rw [reload]
  split <;> next heq => rw [heq] at hload; exact ⟨hload.table, hload.cursor⟩

lemma app_refreshOnce (a : App) : a.refreshOnce.app = a.load.1 := by
  rw [refreshOnce]
  split <;> next heq => rw [heq]

lemma shows_refreshLoop (hs : Shows s a) (rounds : ℕ) :
    Shows (s.run (a.refreshSteps rounds)) (a.refreshLoop rounds).app := by
  induction rounds generalizing s a with
  | zero => exact hs
  | succ rounds ih =>
    have hload := shows_load hs
    rw [← app_refreshOnce] at hload
    simp only [refreshSteps, refreshLoop, Session.run_append]
    cases a.refreshOnce.next with
    | died => exact hload
    | _ => exact ih hload

lemma shows_navigate (hs : Shows s a) (m : Motion) :
    Shows (s.run [a.moveStep m]) (a.navigate m) := by
  cases m with
  | first => exact ⟨hs.table, rfl⟩
  | last => exact ⟨hs.table, rfl⟩
  | _ => exact ⟨hs.table, congrArg (Cursor.move · _ _) hs.cursor⟩

lemma session_dispatch_tell (s : Session) : (s.step (.dispatch .tell)).session = s := by
  rw [Session.step, Session.dispatch]
  split <;> rfl

/-- Whatever comes of an inspection, the table and the cursor stay. -/
lemma shows_inspect (hs : Shows s a) : Shows (s.run a.inspectSteps) a.inspect.app := by
  rw [inspectSteps, inspect]
  cases a.registry.get? Table.source with
  | none => exact hs
  | some name =>
    have htell : Shows (s.run [.dispatch .tell]) a := by
      rw [show s.run [.dispatch .tell] = s from session_dispatch_tell s]
      exact hs
    cases a.table.target with
    | error => exact ⟨htell.table, htell.cursor⟩
    | ok id =>
      simp only
      split <;> exact ⟨htell.table, htell.cursor⟩

lemma shows_command (hs : Shows s a) (c : Command) :
    Shows (s.run (a.commandSteps c)) (a.command c).app := by
  cases c with
  | move m => exact shows_navigate hs m
  | inspect => exact shows_inspect hs
  | rotateSort => exact ⟨congrArg Table.rotateSort hs.table, hs.cursor⟩
  | clearFilter => exact ⟨congrArg (Table.filter · []) hs.table, rfl⟩
  | toggleShowAll => exact shows_reload ⟨congrArg Table.toggleShowAll hs.table, rfl⟩
  | reload => exact shows_reload hs
  | _ => exact hs

lemma shows_pressList (hs : Shows s a) (key : Int) :
    Shows (s.run (a.listSteps key)) (a.pressList key).app := by
  rw [listSteps, pressList]
  split
  · exact hs
  · have hcleared : Shows s { a with message := [] } := ⟨hs.table, hs.cursor⟩
    cases Command.ofKey key with
    | none => exact hcleared
    | some c => exact shows_command hcleared c

lemma shows_pressPrompt (hs : Shows s a) (p : Prompt) (key : Int) :
    Shows (s.run (promptSteps p key)) (a.pressPrompt p key).app := by
  rw [promptSteps, pressPrompt]
  cases p.press key with
  | accepted text => exact ⟨congrArg (Table.filter · text) hs.table, rfl⟩
  | _ => exact hs

lemma shows_await (hs : Shows s a) (next : Next) :
    Shows (s.run (a.awaitSteps next)) (a.await next).1 := by
  cases next with
  | list =>
    refine ⟨?_, hs.cursor⟩
    show ((s.table.resize _ _ _ _).render s.cursor).1 = ((a.table.resize _ _ _ _).render a.cursor).1
    rw [hs.table, hs.cursor]
  | _ => exact hs

namespace Run

variable {r : Run}

lemma shows_proceed (r : Run) (turn : Turn) (hs : Shows s turn.app) :
    Shows (s.run (turn.app.awaitSteps turn.next)) (r.proceed turn).app := by
  have hawait := shows_await hs turn.next
  rw [proceed]
  cases hnext : turn.next with
  | quit => exact hs
  | died => exact hs
  | _ => rw [hnext] at hawait; exact hawait

lemma app_close (r : Run) (key : Int) : (r.close key).app = r.app := by
  rw [close]; split <;> rfl

lemma waiting_close (r : Run) (key : Int) : (r.close key).waiting = r.waiting := by
  rw [close]; split <;> rfl

lemma press_eq (r : Run) (key : Int) : r.press key = (r.close key).proceed (r.turn key) := by
  simp only [press, turn, app_close, waiting_close]
  cases r.waiting <;> rfl

lemma step_of_ended (h : r.ending.isSome) (x : Happening) : r.step x = r := if_pos h

lemma step_key (hgoing : r.ending = none) (key : Int) : r.step (.key key) = r.press key := by
  rw [step, hgoing]
  rfl

lemma step_resize (hgoing : r.ending = none) (size : ScreenSize) :
    r.step (.resize size) = { r with app := { r.app with size := size } }.press 410 := by
  rw [step, hgoing]
  rfl

lemma step_refresh (hgoing : r.ending = none) (rounds : ℕ) :
    r.step (.refresh rounds) = r.refreshed rounds := by
  rw [step, hgoing]
  rfl

lemma shows_turn (hs : Shows s r.app) (key : Int) :
    Shows (s.run (r.turnSteps key)) (r.turn key).app := by
  rw [turnSteps, turn]
  cases r.waiting with
  | prompt p => exact shows_pressPrompt hs p key
  | page => exact hs
  | _ => exact shows_pressList hs key

lemma shows_press (hs : Shows s r.app) (key : Int) :
    Shows (s.run (r.pressSteps key)) (r.press key).app := by
  rw [press_eq, pressSteps, Session.run_append]
  exact shows_proceed _ _ (shows_turn hs key)

lemma refreshed_of_fallen (h : r.fallen.isSome) (rounds : ℕ) : r.refreshed rounds = r := if_pos h

/-- The refresh loop does what it does beside the program, which waits as it did. -/
lemma refreshed_of_alive (h : r.fallen = none) (rounds : ℕ) :
    r.refreshed rounds = { r with
      app := (r.app.refreshLoop rounds).app
      since := r.since ++ (r.app.refreshLoop rounds).events
      fallen := match (r.app.refreshLoop rounds).next with
        | .died f text => some (f, text)
        | _ => none } := by
  rw [refreshed, if_neg (by simp [h])]
  cases hnext : (r.app.refreshLoop rounds).next <;> simp [hnext, h]

/-- Whether or not the refresh loop still runs, it leaves alone what is not its own. -/
lemma refreshed_keeps (r : Run) (rounds : ℕ) :
    (r.refreshed rounds).waiting = r.waiting ∧ (r.refreshed rounds).frames = r.frames ∧
      (r.refreshed rounds).shown = r.shown ∧ (r.refreshed rounds).ending = r.ending := by
  cases h : r.fallen with
  | some e => rw [refreshed_of_fallen (by simp [h])]; exact ⟨rfl, rfl, rfl, rfl⟩
  | none => rw [refreshed_of_alive h]; exact ⟨rfl, rfl, rfl, rfl⟩

lemma app_refreshed (r : Run) (rounds : ℕ) :
    (r.refreshed rounds).app = r.app ∨
      (r.refreshed rounds).app = (r.app.refreshLoop rounds).app := by
  cases h : r.fallen with
  | some e => exact .inl (by rw [refreshed_of_fallen (by simp [h])])
  | none => exact .inr (by rw [refreshed_of_alive h])

lemma shows_refreshed (hs : Shows s r.app) (rounds : ℕ) :
    Shows (s.run (if r.fallen.isSome then [] else r.app.refreshSteps rounds))
      (r.refreshed rounds).app := by
  cases h : r.fallen with
  | some e => rw [refreshed_of_fallen (by simp [h])]; exact hs
  | none => rw [refreshed_of_alive h]; exact shows_refreshLoop hs rounds

lemma shows_step (hs : Shows s r.app) (h : Happening) :
    Shows (s.run (r.steps h)) (r.step h).app := by
  unfold steps step
  split
  · exact hs
  · cases h with
    | key key => exact shows_press hs key
    | resize size =>
      exact shows_press (r := { r with app := { r.app with size := size } })
        ⟨hs.table, hs.cursor⟩ 410
    | refresh rounds => exact shows_refreshed hs rounds
    | _ => exact ⟨hs.table, hs.cursor⟩

lemma shows_run (hs : Shows s r.app) (script : List Happening) :
    Shows (s.run (r.trace script)) (script.foldl step r).app := by
  induction script generalizing s r with
  | nil => exact hs
  | cons h script ih =>
    rw [trace, Session.run_append]
    exact ih (shows_step hs h)

end Run

/-! ### Whole runs -/

lemma fst_prepared (a : App) (pattern : Text) :
    (if pattern.isEmpty then (a, []) else a.filter pattern).1 = a.prepared pattern := by
  rw [prepared]; split <;> rfl

lemma app_launch (a : App) (pattern : Text) :
    (a.launch pattern).app = (a.prepared pattern).load.1 := by
  simp only [launch, fst_prepared]
  split <;> rfl

lemma shows_launch (hs : Shows s a) (pattern : Text) :
    Shows (s.run (a.launchSteps pattern)) (a.launch pattern).app := by
  rw [app_launch, launchSteps, Session.run_append]
  refine shows_load ?_
  rw [prepared]
  split
  · exact hs
  · exact ⟨congrArg (Table.filter · pattern) hs.table, hs.cursor⟩

lemma shows_takeScreen {r : Run} (hs : Shows s r.app) (colours : Bool) :
    Shows (s.run (if r.ending.isSome then [] else r.app.awaitSteps .list))
      (takeScreen colours r).app := by
  rw [takeScreen]
  split
  · exact hs
  · have hthemed : Shows s { r.app with theme := (Theme.start colours).1 } :=
      ⟨hs.table, hs.cursor⟩
    exact Run.shows_proceed r { app := _ } hthemed

/-- **A run is a session of its table**: the program holds the table and cursor that its trace makes
of those it started with. -/
theorem shows_running (a : App) (pattern : Text) (colours : Bool) (script : List Happening) :
    Shows (a.session.run (a.trace pattern colours script))
      (a.running pattern colours script).app := by
  have hlaunch := shows_launch (s := a.session) ⟨rfl, rfl⟩ pattern
  rw [trace, Session.run_append, Session.run_append]
  exact Run.shows_run (shows_takeScreen hlaunch colours) script

lemma fresh_start (daemon : Daemon) (network : Network) (size : ScreenSize) (refresh : Float)
    (showAll : Bool) : (start daemon network size refresh showAll).session.Fresh :=
  ⟨rfl, rfl⟩

/-- The rows of a program go back to its last load. -/
lemma holds_running (ha : a.session.Fresh) (pattern : Text) (colours : Bool)
    (script : List Happening) :
    (a.running pattern colours script).app.table.Holds (a.history pattern colours script) := by
  rw [← (shows_running a pattern colours script).table]
  exact Session.holds_run ha.holds _

/-! ### The frame on screen -/

/-- The table of the frame is painted on it. -/
def Frame.Paints (f : Frame) : Prop :=
  ∃ before after, f.events =
    before ++ (Screen.paint f.app.size f.app.theme f.app.table.draw).map .screen ++ after

lemma paints_of_drawList {f : Frame} {before : List Event} (happ : f.app = a.drawList.1)
    (hevents : f.events = before ++ a.drawList.2.map .screen) (hmounted : f.app.table.mounted) :
    f.Paints := by
  have htable : f.app.table = (a.layout.table.render a.cursor).1 := congrArg App.table happ
  rw [htable, Table.mounted_render] at hmounted
  have hdraw : (a.layout.table.render a.cursor).2 = f.app.table.draw := by
    rw [htable, Table.snd_render _ hmounted]
  obtain ⟨bar, hcalls⟩ : ∃ bar, a.drawList.2 =
      [.erase] ++ Screen.paint a.size a.theme f.app.table.draw ++ bar := by
    rw [← hdraw]
    exact ⟨_, List.append_assoc _ _ _⟩
  have hsize : f.app.size = a.size := by rw [happ]; rfl
  have htheme : f.app.theme = a.theme := by rw [happ]; rfl
  refine ⟨before ++ [.screen .erase], bar.map .screen, ?_⟩
  rw [hevents, hcalls, hsize, htheme]
  simp

namespace Run

variable {r : Run}

/-- While the list is waited on, what is on screen is a drawing of it. -/
def Pictures (r : Run) : Prop :=
  r.waiting = .list → ∀ f, r.shown = some f →
    ∃ (a : App) (before : List Event),
      f.app = a.drawList.1 ∧ f.events = before ++ a.drawList.2.map .screen

lemma pictures_of_blank (h : r.shown = none) : r.Pictures := fun _ f hf => by
  rw [h] at hf; cases hf

lemma shown_close (r : Run) (key : Int) : (r.close key).shown = none := by
  rw [close]
  split
  · assumption
  · rfl

lemma pictures_proceed (h : r.shown = none) (turn : Turn) : (r.proceed turn).Pictures := by
  rw [proceed]
  cases turn.next with
  | list => rintro - f ⟨⟩; exact ⟨turn.app, _, rfl, rfl⟩
  | page => rintro ⟨⟩
  | prompt p => rintro ⟨⟩
  | quit => exact pictures_of_blank rfl
  | died => exact pictures_of_blank h

lemma pictures_press (r : Run) (key : Int) : (r.press key).Pictures := by
  rw [press_eq]
  exact pictures_proceed (r.shown_close key) _

lemma pictures_step (hr : r.Pictures) (h : Happening) : (r.step h).Pictures := by
  unfold step
  split
  · exact hr
  · cases h with
    | key key => exact pictures_press _ key
    | resize size => exact pictures_press _ 410
    | refresh rounds =>
      obtain ⟨hwaiting, -, hshown, -⟩ := r.refreshed_keeps rounds
      unfold Pictures
      rw [hwaiting, hshown]
      exact hr
    | _ => exact hr

lemma pictures_run (hr : r.Pictures) (script : List Happening) :
    (script.foldl step r).Pictures := by
  induction script generalizing r with
  | nil => exact hr
  | cons h script ih => exact ih (pictures_step hr h)

end Run

lemma shown_launch (a : App) (pattern : Text) : (a.launch pattern).shown = none := by
  rw [launch]
  simp only
  split <;> rfl

lemma pictures_running (a : App) (pattern : Text) (colours : Bool) (script : List Happening) :
    (a.running pattern colours script).Pictures := by
  refine Run.pictures_run ?_ script
  rw [takeScreen]
  split
  · exact Run.pictures_of_blank (shown_launch a pattern)
  · exact Run.pictures_proceed (shown_launch a pattern) _

end DockConsole.App
