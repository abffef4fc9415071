import DockConsole.Row

/-!
Narrowing and ordering of rows.

The sort is stable: rows with equal keys keep the order they had. It is an insertion sort, so that
it follows the list and closed terms evaluate.
-/

namespace DockConsole.Rows

/-- The rows that a name pattern lets through; the empty pattern lets all through. -/
def filter (rows : List Row) (pattern : Text) : List Row := rows.filter (Row.matchesName pattern)

/-- A row goes before the first one whose key is not smaller. -/
def insert (key : Row → Text) (r : Row) : List Row → List Row
  | [] => [r]
  | s :: rows => if key r ≤ key s then r :: s :: rows else s :: insert key r rows

def sortBy (key : Row → Text) (rows : List Row) : List Row := rows.foldr (insert key) []

def sort (rows : List Row) (mode : SortMode) : List Row :=
  match mode.title? with
  | none => rows
  | some title => sortBy (·.field title) rows

/-- Only the row at `index` among those the pattern lets through is highlighted. -/
def highlight (pattern : Text) : Nat → List Row → List Row
  | _, [] => []
  | index, r :: rows =>
    if r.matchesName pattern then
      match index with
      | 0 => { r with highlighted := true } :: rows
      | index + 1 => r :: highlight pattern index rows
    else r :: highlight pattern index rows

def plain (rows : List Row) : List Row := rows.map ({ · with highlighted := false })

/-- The rows on the lines from `y` on, one line each. -/
def draw (h : Header) (y : Int) (c : Canvas) : List Row → Canvas
  | [] => c
  | r :: rows => draw h (y + 1) (c.merge (r.draw h y)) rows

end DockConsole.Rows
