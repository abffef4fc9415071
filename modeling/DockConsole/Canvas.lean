import DockConsole.Text
import Std.Data.ExtTreeMap

/-!
A sparse grid of styled cells on the quarter plane `0 ≤ x`, `0 ≤ y`.

A cell holds what was written there last: `get?` is the view of a canvas, and canvases with the same
view are equal. `cells` lists the written positions in reading order, each once, and `runs`,
`bounds` and `line` are read off that list.
-/

namespace DockConsole

/-- The logical style of a cell. A theme turns styles into attributes. -/
inductive Style where
  | plain
  | title
  | filtered
  | header
  | highlight
  | running
  | stopped
  | helpBar
  | reversed
  | other (name : Text)
deriving DecidableEq, Repr

namespace Style

def named : List (Text × Style) :=
  [("none".toList, plain), ("title".toList, title), ("filtered".toList, filtered),
   ("header".toList, header), ("highlight".toList, highlight), ("running".toList, running),
   ("stopped".toList, stopped), ("help_bar".toList, helpBar), ("reversed".toList, reversed)]

def ofName (name : Text) : Style := (named.lookup name).getD (other name)

def name : Style → Text
  | plain => "none".toList
  | title => "title".toList
  | filtered => "filtered".toList
  | header => "header".toList
  | highlight => "highlight".toList
  | running => "running".toList
  | stopped => "stopped".toList
  | helpBar => "help_bar".toList
  | reversed => "reversed".toList
  | other n => n

end Style

structure Pos where
  x : Int
  y : Int
deriving DecidableEq, Repr

namespace Pos

/-- Reading order: by line, and by column within a line. -/
def compare : Pos → Pos → Ordering := compareLex (compareOn Pos.y) (compareOn Pos.x)

instance : Std.TransCmp compare := inferInstanceAs (Std.TransCmp (compareLex _ _))

theorem compare_eq_lt (p q : Pos) : compare p q = .lt ↔ p.y < q.y ∨ p.y = q.y ∧ p.x < q.x := by
  rw [compare, compareLex, compareOn, compareOn, Ordering.then_eq_lt, Std.compare_eq_lt,
    Std.compare_eq_lt, Std.LawfulEqCmp.compare_eq_iff_eq]

instance : Std.LawfulEqCmp compare where
  eq_of_compare {p q} h := by
    rw [compare, compareLex_eq_eq] at h
    have hy : Ord.compare p.y q.y = .eq := h.1
    have hx : Ord.compare p.x q.x = .eq := h.2
    rw [Std.LawfulEqCmp.compare_eq_iff_eq] at hx hy
    rcases p with ⟨_, _⟩
    rcases q with ⟨_, _⟩
    subst hx hy
    rfl

end Pos

/-- What stands in a cell is usually one character, but may be any text. -/
structure Cell where
  glyph : Text
  style : Style
deriving DecidableEq, Repr

/-- There are no cells left of or above the origin. -/
structure Canvas where
  grid : Std.ExtTreeMap Pos Cell Pos.compare := ∅
  inside : ∀ p ∈ grid, 0 ≤ p.x ∧ 0 ≤ p.y := by simp

namespace Canvas

def empty : Canvas := {}

def get? (c : Canvas) (p : Pos) : Option Cell := c.grid[p]?

/-- A write outside of the quarter plane is dropped. -/
def set (c : Canvas) (p : Pos) (cell : Cell) : Canvas :=
  if h : 0 ≤ p.x ∧ 0 ≤ p.y then
    { grid := c.grid.insert p cell
      inside := by
        intro q hq
        rw [Std.ExtTreeMap.mem_insert, Std.LawfulEqCmp.compare_eq_iff_eq] at hq
        obtain rfl | hq := hq
        · exact h
        · exact c.inside q hq }
  else c

/-- One character per cell, rightwards from `(x, y)`. -/
def write (c : Canvas) (x y : Int) (style : Style) : Text → Canvas
  | [] => c
  | ch :: s => write (c.set ⟨x, y⟩ ⟨[ch], style⟩) (x + 1) y style s

/-- The part of a text that a limit lets through; a negative limit lets nothing through. -/
def clip (s : Text) : Option Int → Text
  | none => s
  | some limit => s.take limit.toNat

def fill (c : Canvas) (x y width : Int) (style : Style) : Canvas :=
  c.write x y style (List.replicate width.toNat ' ')

/-- The cells of `d` over those of `c`. -/
def merge (c d : Canvas) : Canvas where
  grid := c.grid ∪ d.grid
  inside := by
    intro p hp
    obtain hp | hp := Std.ExtTreeMap.mem_union_iff.mp hp
    · exact c.inside p hp
    · exact d.inside p hp

/-! ### What each operation does to the view -/

theorem ext_get? {c d : Canvas} (h : ∀ p, c.get? p = d.get? p) : c = d := by
  rcases c with ⟨c, _⟩
  rcases d with ⟨d, _⟩
  obtain rfl : c = d := Std.ExtTreeMap.ext_getElem? h
  rfl

theorem inside_of_get? {c : Canvas} {p : Pos} {cell : Cell} (h : c.get? p = some cell) :
    0 ≤ p.x ∧ 0 ≤ p.y := by
  apply c.inside
  rw [Std.ExtTreeMap.mem_iff_isSome_getElem?]
  exact Option.isSome_of_eq_some h

theorem get?_empty (p : Pos) : empty.get? p = none := Std.ExtTreeMap.getElem?_empty

theorem get?_set (c : Canvas) (p : Pos) (cell : Cell) (q : Pos) :
    (c.set p cell).get? q = if q = p ∧ 0 ≤ p.x ∧ 0 ≤ p.y then some cell else c.get? q := by
  rw [set]
  split
  · next h =>
    simp only [get?, Std.ExtTreeMap.getElem?_insert, Std.LawfulEqCmp.compare_eq_iff_eq]
    by_cases hq : q = p <;> simp [hq, h, Ne.symm]
  · next h => rw [if_neg (fun k => h k.2)]

theorem get?_merge (c d : Canvas) (q : Pos) :
    (c.merge d).get? q = (d.get? q).or (c.get? q) := Std.ExtTreeMap.getElem?_union

theorem get?_write (c : Canvas) (x y : Int) (style : Style) (s : Text) (q : Pos) :
    (c.write x y style s).get? q =
      if q.y = y ∧ x ≤ q.x ∧ 0 ≤ q.x ∧ 0 ≤ q.y then
        (s[(q.x - x).toNat]?.map fun ch => ⟨[ch], style⟩).or (c.get? q)
      else c.get? q := by
  induction s generalizing c x with
  | nil => simp [write]
  | cons ch s ih =>
    rw [write, ih, get?_set]
    obtain ⟨qx, qy⟩ := q
    by_cases hx : qx = x
    · subst hx
      have h : ¬ qx + 1 ≤ qx := by omega
      simp only [h, Pos.mk.injEq, true_and, Int.sub_self, Int.toNat_zero, List.getElem?_cons_zero,
        Int.le_refl, false_and, and_false, if_false, Option.map_some, Option.some_or]
      by_cases hy : qy = y <;> simp [hy]
    · by_cases hlt : x ≤ qx
      · have h : (qx - x).toNat = (qx - (x + 1)).toNat + 1 := by omega
        have h' : x + 1 ≤ qx := by omega
        simp [hx, hlt, h, h']
      · have h : ¬ x + 1 ≤ qx := by omega
        simp [hx, hlt, h]

theorem get?_fill (c : Canvas) (x y width : Int) (style : Style) (q : Pos) :
    (c.fill x y width style).get? q =
      if q.y = y ∧ x ≤ q.x ∧ q.x < x + width ∧ 0 ≤ q.x ∧ 0 ≤ q.y then some ⟨[' '], style⟩
      else c.get? q := by
  rw [fill, get?_write, List.getElem?_replicate]
  by_cases hw : q.x < x + width
  · by_cases hx : x ≤ q.x
    · have h : (q.x - x).toNat < width.toNat := by omega
      simp [hw, hx, h]
    · simp [hx]
  · by_cases hx : x ≤ q.x
    · have h : ¬ (q.x - x).toNat < width.toNat := by omega
      simp [hw, h]
    · simp [hx]

/-! ### Reading a canvas off -/

/-- The written positions in reading order, with what stands there. -/
def cells (c : Canvas) : List (Pos × Cell) := c.grid.toList

theorem mem_cells {c : Canvas} {p : Pos} {cell : Cell} :
    (p, cell) ∈ c.cells ↔ c.get? p = some cell := Std.ExtTreeMap.mem_toList_iff_getElem?_eq_some

theorem cells_ordered (c : Canvas) :
    c.cells.Pairwise fun e f => e.1.y < f.1.y ∨ e.1.y = f.1.y ∧ e.1.x < f.1.x := by
  apply List.Pairwise.imp _ Std.ExtTreeMap.ordered_keys_toList
  intro e f h
  exact (Pos.compare_eq_lt e.1 f.1).mp h

def size (c : Canvas) : Nat := c.grid.size

/-- The smallest rectangle around the written cells, its edges included. -/
structure Bounds where
  left : Int
  top : Int
  right : Int
  bottom : Int
deriving DecidableEq, Repr

def Bounds.around (b : Bounds) (p : Pos) : Bounds :=
  ⟨min b.left p.x, min b.top p.y, max b.right p.x, max b.bottom p.y⟩

def bounds (c : Canvas) : Option Bounds :=
  match c.cells with
  | [] => none
  | (p, _) :: es => some (es.foldl (fun b e => b.around e.1) ⟨p.x, p.y, p.x, p.y⟩)

/-- The cells of one line from column `x` on, with blanks where nothing was written. -/
def spaced (x : Int) : List (Pos × Cell) → Text
  | [] => []
  | (p, cell) :: es => List.replicate (p.x - x).toNat ' ' ++ cell.glyph ++ spaced (p.x + 1) es

/-- The text of line `y`, from column 0 to its last written cell. -/
def line (c : Canvas) (y : Int) : Text := spaced 0 (c.cells.filter (·.1.y = y))

/-- Adjacent cells of one line that share a style. -/
structure Run where
  y : Int
  x : Int
  text : Text
  style : Style
deriving DecidableEq, Repr

/-- A cell joins the run that starts right after it, or starts a run of its own. -/
def addRun (e : Pos × Cell) : List Run → List Run
  | [] => [⟨e.1.y, e.1.x, e.2.glyph, e.2.style⟩]
  | r :: rs =>
    if r.y = e.1.y ∧ r.x = e.1.x + 1 ∧ r.style = e.2.style then
      ⟨e.1.y, e.1.x, e.2.glyph ++ r.text, r.style⟩ :: rs
    else ⟨e.1.y, e.1.x, e.2.glyph, e.2.style⟩ :: r :: rs

def runs (c : Canvas) : List Run := c.cells.foldr addRun []

end Canvas

end DockConsole
