import DockConsole.Canvas
import DockConsole.NameMap

/-!
Several canvases by name, each empty until it is drawn on.
-/

namespace DockConsole

abbrev Sheets := NameMap Canvas

namespace Sheets

inductive Step where
  | set (sheet : Text) (p : Pos) (cell : Cell)
  | write (sheet : Text) (x y : Int) (text : Text) (style : Style) (limit : Option Int)
  | fill (sheet : Text) (x y width : Int) (style : Style)
  | merge (sheet other : Text)
deriving DecidableEq, Repr

def canvas (s : Sheets) (name : Text) : Canvas := (s.get? name).getD .empty

/-- A name counts as soon as it is mentioned. -/
def mention (s : Sheets) (name : Text) : Sheets := s.put name (canvas s name)

def step (s : Sheets) : Step → Sheets
  | .set sheet p cell => s.put sheet ((canvas s sheet).set p cell)
  | .write sheet x y text style limit =>
    s.put sheet ((canvas s sheet).write x y style (Canvas.clip text limit))
  | .fill sheet x y width style => s.put sheet ((canvas s sheet).fill x y width style)
  | .merge sheet other =>
    (mention (mention s sheet) other).put sheet ((canvas s sheet).merge (canvas s other))

def run (s : Sheets) (steps : List Step) : Sheets := steps.foldl step s

theorem run_append (s : Sheets) (xs ys : List Step) : run s (xs ++ ys) = run (run s xs) ys :=
  List.foldl_append

theorem canvas_put (s : Sheets) (name : Text) (c : Canvas) (other : Text) :
    canvas (s.put name c) other = if other = name then c else canvas s other := by
  simp only [canvas, NameMap.get?_put]
  split <;> rfl

theorem canvas_mention (s : Sheets) (name other : Text) :
    canvas (mention s name) other = canvas s other := by
  rw [mention, canvas_put]
  split
  · next h => rw [h]
  · rfl

end Sheets

end DockConsole
