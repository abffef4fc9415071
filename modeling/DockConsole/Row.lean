import DockConsole.Container
import DockConsole.Header
import DockConsole.NameMap

/-!
One line of the table: a container with the text of each column.
-/

namespace DockConsole

structure Row where
  container : Container
  fields : NameMap Text
  highlighted : Bool := false
  x : Int := 0
  width : Nat := 0
deriving Repr

namespace Row

/-- What the columns show, from left to right. -/
def values (c : Container) : List Text :=
  [[if c.running then '●' else '○'], c.id.take 12, c.image, c.command, c.status, c.ports, c.name]

/-- Titles are paired with values from the left. A title that comes twice shows its last value. -/
def ofContainer (titles : List Text) (c : Container) : Row where
  container := c
  fields := NameMap.ofList (titles.zip (values c))

def id (r : Row) : Text := r.container.id

def field (r : Row) (title : Text) : Text := (r.fields.get? title).getD []

def align (r : Row) (x width : Int) : Row := { r with x := x, width := width.toNat }

/-- Whether the container's name has `pattern` in it, upper and lower case told apart. -/
def matchesName (pattern : Text) (r : Row) : Bool := (r.field "NAMES".toList).includes pattern

/-- A highlighted row is painted over its full width, and its text on top of that. -/
def draw (r : Row) (h : Header) (y : Int) : Canvas :=
  let texts := h.layout.zip (h.titles.map r.field)
  if r.highlighted then
    Header.writeColumns y .highlight .highlight (Canvas.empty.fill r.x y r.width .highlight) texts
  else
    Header.writeColumns y (if r.container.running then .running else .stopped) .plain .empty texts

end Row

end DockConsole
