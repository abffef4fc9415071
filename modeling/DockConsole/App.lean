import DockConsole.Command
import DockConsole.HelpBar
import DockConsole.NameMap
import DockConsole.Page
import DockConsole.Prompt
import DockConsole.Table

/-!
The program behind the screen: the table, the daemon it is loaded from, and what each key does.

A failed reload or inspection becomes a message in the help bar and is cleared by the next key. A
fault that is no fetch error ends whatever it struck: the program, if it came of a key, and otherwise
the refresh loop.
-/

namespace DockConsole

structure App where
  daemon : Daemon
  network : Network
  size : ScreenSize
  refresh : Float
  table : Table := {}
  cursor : Cursor := {}
  theme : Theme := {}
  message : Text := []
  registry : NameMap Text := NameMap.empty.put Table.source Table.name

/-- What the program waits for next, or how it ended. -/
inductive Next where
  | list
  | page
  | prompt (p : Prompt)
  | quit
  | died (f : Fault) (text : Text)
deriving DecidableEq, Repr

/-- The program after it has done something, and what it did. -/
structure Turn where
  app : App
  events : List Event := []
  next : Next := .list

namespace App

def start (daemon : Daemon) (network : Network) (size : ScreenSize) (refresh : Float)
    (showAll : Bool) : App :=
  { daemon, network, size, refresh, table := { showAll } }

def filter (a : App) (pattern : Text) : App × List Event :=
  let table := a.table.filter pattern
  ({ a with table := table }, [.log table.filterNote])

/-- The containers that the rows of the table are made of, if they can be. -/
def containers (summaries : List Summary) : Except Trouble (List Container) :=
  (Summary.containers summaries).mapError .ofFault

/-- The containers of the daemon into the table. On failure the table stays as it is. -/
def load (a : App) : App × List Event × Except Trouble Unit :=
  let reply := a.daemon.list a.table.selections a.table.sortMode a.network
  let a := { a with network := reply.network }
  match reply.result.bind containers with
  | .error t => (a, reply.events, .error t)
  | .ok listed =>
    let table := a.table.load listed
    ({ a with table := table }, reply.events ++ [.log table.loadNote], .ok ())

def reload (a : App) : Turn :=
  match a.load with
  | (a, events, .ok ()) => { app := a, events }
  | (a, events, .error (.fetch e)) =>
    { app := { a with message := "Refresh failed: ".toList ++ e.message }
      events := events ++
        [.logged Level.warning ("ContainersBrowser._reload(): ".toList ++ e.message)] }
  | (a, events, .error (.fault f text)) => { app := a, events, next := .died f text }

/-- One round of the refresh loop. Its failures are only logged. -/
def refreshOnce (a : App) : Turn :=
  match a.load with
  | (a, events, .ok ()) => { app := a, events }
  | (a, events, .error (.fetch e)) =>
    { app := a
      events := events ++ [.logged Level.warning
        ("ContainersBrowser._refresh_loop(): refresh failed: ".toList ++ e.message)] }
  | (a, events, .error (.fault f text)) => { app := a, events, next := .died f text }

/-- So many rounds of the refresh loop, each after a wait, and the wait that ends it. A fault ends the
loop with its round. -/
def refreshLoop (a : App) : Nat → Turn
  | 0 => { app := a, events := [.wait a.refresh] }
  | rounds + 1 =>
    let first := a.refreshOnce
    match first.next with
    | .died f text => { first with events := .wait a.refresh :: first.events, next := .died f text }
    | _ =>
      let rest := first.app.refreshLoop rounds
      { rest with events := .wait a.refresh :: first.events ++ rest.events }

/-- The rows get what the title line, the column titles and the help bar leave over. -/
def layout (a : App) : App :=
  { a with table := a.table.resize 0 0 (max 0 (a.size.columns - 1)) (a.size.rows - 3) }

/-- A move never goes past the last row that the filter lets through. -/
def navigate (a : App) (m : Motion) : App :=
  let last : Int := (a.table.shown.length - 1 : Nat)
  let page := max 1 a.table.height
  let cursor := match m with
    | .up => a.cursor.move (-1) last
    | .down => a.cursor.move 1 last
    | .pageDown => a.cursor.move page last
    | .pageUp => a.cursor.move (-page) last
    | .first => a.cursor.home
    | .last => a.cursor.toLast last
  { a with cursor := cursor }

/-- The frame of the list: everything is laid out and drawn anew. -/
def drawList (a : App) : App × List ScreenCall :=
  let a := a.layout
  let (table, c) := a.table.render a.cursor
  let bar := HelpBar.draw a.size a.theme table.selected table.shown.length a.message
  ({ a with table := table },
    [.erase] ++ Screen.paint a.size a.theme c ++ bar ++ [.refresh, .waitAtMost 1000])

def showPage (a : App) (lines : List Text) : Turn :=
  { app := a, events := (Page.draw a.size a.theme lines).map .screen, next := .page }

/-- The lines of a page that shows the details, if they can be shown. -/
def details (v : Json) : Except Trouble (List Text) :=
  match Page.misfit? v with
  | some e => .error (.ofFault e)
  | none => .ok (Page.details v)

/-- The selected container's details, if a table is registered as what shows containers. -/
def inspect (a : App) : Turn :=
  match a.registry.get? Table.source with
  | none => { app := a }
  | some _ =>
    match a.table.target with
    | .error n => { app := { a with message := n.message } }
    | .ok id =>
      let reply := a.daemon.inspect id a.network
      let a := { a with network := reply.network }
      match reply.result.bind details with
      | .ok lines =>
        let turn := a.showPage lines
        { turn with events := reply.events ++ turn.events }
      | .error (.fetch e) =>
        { app := { a with message := "Inspect failed: ".toList ++ e.message }
          events := reply.events ++
            [.logged Level.warning
              ("ContainersBrowser._inspect_selected(): ".toList ++ e.message)] }
      | .error (.fault f text) => { app := a, events := reply.events, next := .died f text }

def command (a : App) : Command → Turn
  | .move m => { app := a.navigate m }
  | .inspect => a.inspect
  | .rotateSort =>
    let table := a.table.rotateSort
    { app := { a with table := table }, events := [.log table.sortNote] }
  | .editFilter =>
    { app := a
      events := Prompt.opening.map .screen
      next := .prompt (Prompt.start "/ ".toList a.table.pattern) }
  | .clearFilter =>
    let (a, events) := a.filter []
    { app := { a with cursor := a.cursor.home }, events }
  | .toggleShowAll =>
    { a with table := a.table.toggleShowAll, cursor := a.cursor.home }.reload
  | .reload => a.reload
  | .help => a.showPage Page.help
  | .quit => { app := a, next := .quit }

/-- A key of the list. The key -1 only says that none was hit in time. -/
def pressList (a : App) (key : Int) : Turn :=
  if key = -1 then { app := a }
  else
    let a := { a with message := [] }
    match Command.ofKey key with
    | none => { app := a }
    | some c => a.command c

def pressPrompt (a : App) (p : Prompt) (key : Int) : Turn :=
  match p.press key with
  | .editing p => { app := a, next := .prompt p }
  | .cancelled => { app := a, events := Prompt.closing.map .screen }
  | .accepted text =>
    let (a, events) := a.filter text
    { app := { a with cursor := a.cursor.home }
      events := Prompt.closing.map .screen ++ events }

/-- The screen on which the next key is awaited. -/
def await (a : App) : Next → App × List Event
  | .list =>
    let (a, calls) := a.drawList
    (a, calls.map .screen)
  | .prompt p => (a, (p.draw a.size a.theme).map .screen)
  | _ => (a, [])

end App

end DockConsole
