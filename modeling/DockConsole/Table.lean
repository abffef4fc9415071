import DockConsole.Cursor
import DockConsole.Daemon
import DockConsole.Rows
import DockConsole.Window

/-!
The container list: a table that can be sorted and filtered and draws only the rows that fit.

Order, filter and selection take effect when the table is drawn. The selected row is counted among
the rows that the filter lets through, in the order shown.
-/

namespace DockConsole

structure Table where
  header : Header := { columns := Header.containerColumns }
  /-- All rows of the last load; the filter only narrows what is drawn. -/
  rows : List Row := []
  x : Int := 0
  y : Int := 0
  width : Int := 0
  height : Int := 0
  showAll : Bool := false
  sortMode : SortMode := .byId
  pattern : Text := []
  mounted : Bool := false
  selected : Nat := 0
  window : Window := {}
deriving Repr

/-- Why no container can be acted on. -/
inductive NoTarget where
  | noMatch (pattern : Text)
  | nothingLoaded
deriving DecidableEq, Repr

def NoTarget.message : NoTarget → Text
  | noMatch pattern => "No container matches the filter '".toList ++ pattern ++ ['\'']
  | nothingLoaded => "The container list is empty".toList

namespace Table

def name : Text := "ContainersWidget".toList

/-- The name under which a table registers as what shows containers. -/
def source : Text := "containers".toList

/-- What a load asks the daemon for. -/
def selections (t : Table) : List Selection := if t.showAll then [.unfiltered] else [.running]

/-- The table's place is handed on to the header and to every row. -/
def align (t : Table) : Table :=
  { t with
    header := t.header.align t.x t.width
    rows := t.rows.map (·.align t.x t.width) }

/-- New rows for the containers of an answer. -/
def load (t : Table) (containers : List Container) : Table :=
  { t with rows := containers.map (Row.ofContainer t.header.titles), mounted := true }.align

def loadNote (t : Table) : LogRecord :=
  ⟨Level.info, "ContainersWidget: mounted ".toList ++ Text.ofNat t.rows.length ++
    " containers (show all: ".toList ++ (if t.showAll then "True" else "False").toList ++ [')']⟩

def unmount (t : Table) : Table := { t with mounted := false }

/-- The other choice between all containers and running ones, from the next load on. -/
def toggleShowAll (t : Table) : Table := { t with showAll := !t.showAll, mounted := false }

def filter (t : Table) (pattern : Text) : Table := { t with pattern := pattern }

def filterNote (t : Table) : LogRecord :=
  ⟨Level.debug, "ContainersWidget.filter(): pattern='".toList ++ t.pattern ++ ['\'']⟩

def rotateSort (t : Table) : Table := { t with sortMode := t.sortMode.next }

def sortNote (t : Table) : LogRecord :=
  ⟨Level.debug, "ContainersWidget.sort(): now sorting ".toList ++ t.sortMode.label⟩

def resize (t : Table) (x y width height : Int) : Table :=
  { t with x := x, y := y, width := width, height := height }.align

/-- The rows that the filter lets through. -/
def shown (t : Table) : List Row := Rows.filter t.rows t.pattern

def sort (t : Table) : Table := { t with rows := Rows.sort t.rows t.sortMode }

/-- The row under the cursor is highlighted and no other. A cursor past the end selects the last
row. -/
def select (t : Table) (cursor : Cursor) : Table :=
  let selected := min cursor.position (t.shown.length - 1)
  { t with rows := Rows.highlight t.pattern selected (Rows.plain t.rows), selected := selected }

def scroll (t : Table) : Table :=
  { t with window := t.window.follow t.selected t.shown.length t.height }

def visible (t : Table) : List Row := t.window.slice t.shown

def caption (t : Table) : Text :=
  if t.pattern.isEmpty then [] else " | Container name filter: ".toList ++ t.pattern

/-- The title line, the column titles, and the visible rows below them. -/
def draw (t : Table) : Canvas :=
  let top := (titleLine "Containers".toList t.rows.length t.caption t.x t.y t.width).merge
    (t.header.draw t.sortMode (t.y + 1))
  Rows.draw t.header (t.y + 2) top t.visible

/-- A mounted table is brought in order and drawn; any other shows nothing and stays as it is. -/
def render (t : Table) (cursor : Cursor) : Table × Canvas :=
  if t.mounted then
    let t := (t.sort.select cursor).scroll
    (t, t.draw)
  else (t, .empty)

/-- The id of the selected container, as of the last drawing and within the rows shown now. -/
def target (t : Table) : Except NoTarget Text :=
  match t.shown[min t.selected (t.shown.length - 1)]? with
  | some r => .ok r.id
  | none => .error (if t.rows.isEmpty then .nothingLoaded else .noMatch t.pattern)

end Table

end DockConsole
