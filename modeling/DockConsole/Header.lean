import DockConsole.Canvas
import DockConsole.SortMode

/-!
The columns of the table, and how they share its width.

Titles are kept bare. The mark of the active order is added whenever the titles are drawn.
-/

namespace DockConsole

structure Column where
  title : Text
  sortMode : SortMode := .unsorted
  fixedWidth : Option Int := none
deriving DecidableEq, Repr

/-- The title as shown: marked if the column decides the active order. -/
def Column.shownTitle (c : Column) (active : SortMode) : Text :=
  if active ≠ .unsorted ∧ c.sortMode = active then '↓' :: c.title else c.title

structure Span where
  x : Int
  width : Int
deriving DecidableEq, Repr

structure Header where
  columns : List Column
  spacing : Int := 1
  x : Int := 0
  width : Nat := 0
deriving DecidableEq, Repr

namespace Header

def containerColumns : List Column :=
  [{ title := [], fixedWidth := some 2 },
   { title := "CONTAINER".toList, sortMode := .byId, fixedWidth := some 12 },
   { title := "IMAGE".toList, sortMode := .byImage },
   { title := "COMMAND".toList },
   { title := "STATUS".toList, sortMode := .byStatus, fixedWidth := some 18 },
   { title := "PORTS".toList },
   { title := "NAMES".toList, sortMode := .byName }]

def titles (h : Header) : List Text := h.columns.map (·.title)

def shownTitles (h : Header) (active : SortMode) : List Text :=
  h.columns.map (·.shownTitle active)

def align (h : Header) (x width : Int) : Header := { h with x := x, width := width.toNat }

def fixedTotal (h : Header) : Int := (h.columns.filterMap (·.fixedWidth)).foldr (· + ·) 0

def flexibleCount (h : Header) : Nat := h.columns.countP (·.fixedWidth.isNone)

/-- What the gaps between the columns take. -/
def gaps (h : Header) : Int := h.spacing * (h.columns.length - 1 : Nat)

/-- The width of a column without a width of its own: an even share of what is left over. -/
def share (h : Header) : Int := max 0 (h.width - h.fixedTotal - h.gaps) / h.flexibleCount

/-- Columns side by side from `x` on, each cut at `right`. -/
def place (spacing right share : Int) (x : Int) : List Column → List Span
  | [] => []
  | c :: cs =>
    let width := max 0 (min (c.fixedWidth.getD share) (right - x))
    ⟨x, width⟩ :: place spacing right share (x + width + spacing) cs

def layout (h : Header) : List Span := place h.spacing (h.x + h.width) h.share h.x h.columns

/-- Texts in their columns on line `y`, each cut to its column. The first has its own style. -/
def writeColumns (y : Int) (first rest : Style) (c : Canvas) : List (Span × Text) → Canvas
  | [] => c
  | (s, text) :: es =>
    writeColumns y rest rest (c.write s.x y first (Canvas.clip text (some s.width))) es

def draw (h : Header) (active : SortMode) (y : Int) : Canvas :=
  writeColumns y .header .header .empty (h.layout.zip (h.shownTitles active))

end Header

/-- The line above the table: a title with a count, and a caption in a style of its own. -/
def titleLine (title : Text) (count : Int) (caption : Text) (x y width : Int) : Canvas :=
  let text := Canvas.clip (title ++ ": ".toList ++ Text.ofInt count) (some width)
  let c := Canvas.empty.write x y .title text
  c.write (x + text.length) y .filtered (Canvas.clip caption (some (width - text.length)))

end DockConsole
