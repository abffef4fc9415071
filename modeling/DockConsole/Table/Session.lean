import DockConsole.Table

/-!
A table in use: with its cursor, with a provider that may fail, and with actions on the selected
container that may themselves use the table.
-/

namespace DockConsole.Table

/-- A failure of the provider. -/
structure Outage where
  message : Text
  lines : List Text := []
deriving DecidableEq, Repr

structure Session where
  table : Table
  cursor : Cursor := {}
  supply : List Container := []
  outage : Option Outage := none
deriving Repr

/-- What an action does with the id of the selected container. -/
inductive Action where
  | tell
  | query
  | render
  | remount
  | refuse (why : Text)
deriving DecidableEq, Repr

inductive Step where
  | mount
  | unmount
  | remount
  | render
  | filter (pattern : Option Text)
  | sort
  | toggleShowAll
  | resize (x y width height : Int)
  | dispatch (action : Action)
  | supply (containers : List Container)
  | fail (outage : Option Outage)
  | cursorMove (delta last : Int)
  | cursorHome
  | cursorToLast (last : Int)
deriving Repr

inductive Failure where
  | outage (o : Outage)
  | noTarget (n : NoTarget)
  | refused (why : Text)
deriving DecidableEq, Repr

inductive Answer where
  | nothing
  | drawing (c : Canvas)
  | moved (position : Nat)
  | told (id : Text)
  | counted (id : Text) (rows shown selected : Nat)
  | drawn (id : Text) (cells : Nat)
  | failed (why : Failure)

inductive Notice where
  | asked (selections : List Selection) (mode : SortMode)
  | acted (id : Text)
  | log (record : LogRecord)
deriving DecidableEq, Repr

structure Outcome where
  session : Session
  answer : Answer := .nothing
  notices : List Notice := []

namespace Session

/-- Rows from the provider, whether there were any before or not. On failure nothing changes. -/
def reload (s : Session) : Outcome :=
  let asked := Notice.asked s.table.selections s.table.sortMode
  match s.outage with
  | some o => ⟨s, .failed (.outage o), [asked]⟩
  | none =>
    let table := s.table.load s.supply
    ⟨{ s with table := table }, .nothing, [asked, .log table.loadNote]⟩

def mount (s : Session) : Outcome := if s.table.mounted then { session := s } else s.reload

def render (s : Session) : Session × Canvas :=
  let (table, c) := s.table.render s.cursor
  ({ s with table := table }, c)

def act (s : Session) (id : Text) : Action → Outcome
  | .tell => ⟨s, .told id, []⟩
  | .query => ⟨s, .counted id s.table.rows.length s.table.shown.length s.table.selected, []⟩
  | .render =>
    let (s, c) := s.render
    ⟨s, .drawn id c.size, []⟩
  | .remount =>
    let o := s.reload
    match o.answer with
    | .failed _ => o
    | _ => { o with answer := .told id }
  | .refuse why => ⟨s, .failed (.refused why), []⟩

/-- An action is run once, on the selected container, or not at all if there is none. -/
def dispatch (s : Session) (act : Session → Text → Outcome) : Outcome :=
  match s.table.target with
  | .error n => ⟨s, .failed (.noTarget n), []⟩
  | .ok id =>
    let o := act s id
    { o with notices := .acted id :: o.notices }

def step (s : Session) : Step → Outcome
  | .mount => s.mount
  | .unmount => { session := { s with table := s.table.unmount } }
  | .remount => s.reload
  | .render =>
    let (s, c) := s.render
    ⟨s, .drawing c, []⟩
  | .filter pattern =>
    let table := s.table.filter (pattern.getD [])
    ⟨{ s with table := table }, .nothing, [.log table.filterNote]⟩
  | .sort =>
    let table := s.table.rotateSort
    ⟨{ s with table := table }, .nothing, [.log table.sortNote]⟩
  | .toggleShowAll => { session := { s with table := s.table.toggleShowAll } }
  | .resize x y width height => { session := { s with table := s.table.resize x y width height } }
  | .dispatch action => s.dispatch (fun s id => s.act id action)
  | .supply containers => { session := { s with supply := containers } }
  | .fail outage => { session := { s with outage := outage } }
  | .cursorMove delta last =>
    let cursor := s.cursor.move delta last
    ⟨{ s with cursor := cursor }, .moved cursor.position, []⟩
  | .cursorHome => { session := { s with cursor := s.cursor.home } }
  | .cursorToLast last => { session := { s with cursor := s.cursor.toLast last } }

/-- The state after a sequence of steps. -/
def run (s : Session) (steps : List Step) : Session :=
  steps.foldl (fun s step => (s.step step).session) s

theorem run_append (s : Session) (xs ys : List Step) : s.run (xs ++ ys) = (s.run xs).run ys :=
  List.foldl_append

end Session

end DockConsole.Table
