/-!
The part of a list that fits on screen.

A window follows the selection: it moves by one row when the selection leaves it by one, and
jumps when the selection is further away.
-/

namespace DockConsole

/-- The rows from `start` up to but not including `stop`. -/
structure Window where
  start : Int := 0
  stop : Int := 0
deriving DecidableEq, Repr

namespace Window

/-- Where a window of `height` rows that starts at `start` has to start to follow `selected`. -/
def scroll (start selected total height : Int) : Int :=
  if selected ≤ 0 then 0
  else if total - 1 ≤ selected then total - height
  else if selected = start + height then start + 1
  else if selected ≤ start then start - 1
  else if start + height < selected then selected - height
  else start

/-- The start nearest to `start` for which the window stays within the list. -/
def within (start total height : Int) : Int := max 0 (min start (total - height))

/-- The window to show, given the one shown last. A negative height has no room for rows. -/
def follow (prev : Window) (selected total height : Int) : Window :=
  if height < 0 then ⟨0, 0⟩
  else if total ≤ height then ⟨0, total⟩
  else
    let start := within (scroll (within prev.start total height) selected total height) total height
    ⟨start, start + height⟩

/-- The number of rows, if the window does not end before it starts. -/
def size? (w : Window) : Option Int := if w.stop < w.start then none else some (w.stop - w.start)

def slice {α : Type} (rows : List α) (w : Window) : List α :=
  (rows.take w.stop.toNat).drop w.start.toNat

end Window

end DockConsole
