import DockConsole.Canvas

/-!
Calls on the terminal screen, and drawing that keeps within its size.

Lines and columns count from 0. The last column is never written, so that the terminal does not
scroll.
-/

namespace DockConsole

structure ScreenSize where
  rows : Int
  columns : Int
deriving DecidableEq, Repr

/-- One call on the screen or on the terminal it is on. -/
inductive ScreenCall where
  | addText (y x : Int) (text : Text) (attr : Int)
  | addTextUpTo (y x : Int) (text : Text) (limit attr : Int)
  | moveTo (y x : Int)
  | clearToEndOfLine
  | erase
  | refresh
  | waitAtMost (milliseconds : Int)
  | keypad (on : Bool)
  | readKey (key : Int)
  | startColor
  | useDefaultColors
  | showCursor (visibility : Int)
  | setPair (pair foreground background : Int)
deriving DecidableEq, Repr

namespace Attr

def underline : Int := 131072
def reverse : Int := 262144
def bold : Int := 2097152

/-- The attribute that selects a colour pair. -/
def pair (n : Int) : Int := n * 256

/-- Attributes together: the bits of either, in two's complement. -/
def union : Int → Int → Int
  | .ofNat m, .ofNat n => .ofNat (m ||| n)
  | .ofNat m, .negSucc n => .negSucc (n ^^^ (n &&& m))
  | .negSucc m, .ofNat n => .negSucc (m ^^^ (m &&& n))
  | .negSucc m, .negSucc n => .negSucc (m &&& n)

end Attr

/-- The attribute of each style. -/
structure Theme where
  title : Int := 0
  header : Int := 0
  helpBar : Int := 0
  highlight : Int := Attr.reverse
  running : Int := 0
  stopped : Int := 0
  plain : Int := 0
  filtered : Int := 0
  reversed : Int := Attr.reverse
deriving DecidableEq, Repr

namespace Theme

def attr (t : Theme) : Style → Int
  | .plain => t.plain
  | .title => t.title
  | .filtered => t.filtered
  | .header => t.header
  | .highlight => t.highlight
  | .running => t.running
  | .stopped => t.stopped
  | .helpBar => t.helpBar
  | .reversed => t.reversed
  | .other _ => 0

def monochrome : Theme where
  title := Attr.bold
  header := Attr.union Attr.bold Attr.underline

def coloured : Theme where
  title := Attr.union Attr.bold (Attr.pair 1)
  header := Attr.union Attr.bold (Attr.pair 2)
  helpBar := Attr.pair 3
  highlight := Attr.pair 8
  running := Attr.pair 4
  stopped := Attr.pair 5
  plain := Attr.pair 6
  filtered := Attr.union Attr.bold (Attr.pair 7)

/-- Colours: 0 black, 1 red, 2 green, 3 yellow, 6 cyan, 7 white, and -1 for the terminal's own. -/
def colourCalls : List ScreenCall :=
  [.startColor, .useDefaultColors, .showCursor 0, .setPair 1 3 (-1), .setPair 2 6 (-1),
   .setPair 3 0 7, .setPair 4 2 (-1), .setPair 5 1 (-1), .setPair 6 7 (-1), .setPair 7 6 (-1),
   .setPair 8 0 6]

/-- The theme for a terminal, and the calls that set it up. -/
def start (colours : Bool) : Theme × List ScreenCall :=
  if colours then (coloured, colourCalls) else (monochrome, [])

end Theme

namespace Screen

/-- A text cut at the last column but one; nothing at all from outside the right or lower edge. -/
def addClipped (size : ScreenSize) (y x : Int) (text : Text) (attr : Int) : List ScreenCall :=
  if size.rows ≤ y ∨ size.columns ≤ x then []
  else [.addText y x (text.upTo (size.columns - x - 1)) attr]

def paint (size : ScreenSize) (theme : Theme) (c : Canvas) : List ScreenCall :=
  c.runs.flatMap fun r => addClipped size r.y r.x r.text (theme.attr r.style)

end Screen

end DockConsole
