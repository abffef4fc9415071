import DockConsole.Screen
import DockConsole.Text.Blank

/-!
A line of text that the user edits at the bottom of the screen.

The text scrolls so that the caret stays in sight; the label in front of it does not.
-/

namespace DockConsole

/-- What a key does to the line. -/
inductive Edit where
  | accept
  | cancel
  | dropBefore
  | dropAt
  | left
  | right
  | toStart
  | toEnd
  | type (c : Char)
deriving DecidableEq, Repr

/-- Only the printable characters of ASCII are typed; keys without a meaning are ignored. -/
def Edit.ofKey (key : Int) : Option Edit :=
  if key = 10 ∨ key = 13 ∨ key = 343 then some .accept
  else if key = 27 then some .cancel
  else if key = 8 ∨ key = 127 ∨ key = 263 then some .dropBefore
  else if key = 330 then some .dropAt
  else if key = 260 then some .left
  else if key = 261 then some .right
  else if key = 262 then some .toStart
  else if key = 360 then some .toEnd
  else if 32 ≤ key ∧ key ≤ 126 then some (.type (Char.ofNat key.toNat))
  else none

/-- The caret stands in front of the character at `caret`, or at the end. -/
structure Prompt where
  label : Text
  text : Text
  caret : Nat
deriving DecidableEq, Repr

namespace Prompt

inductive Step where
  | editing (p : Prompt)
  | accepted (text : Text)
  | cancelled
deriving DecidableEq, Repr

def start (label initial : Text) : Prompt := ⟨label, initial, initial.length⟩

def dropChar (p : Prompt) (place : Nat) : Prompt :=
  { p with text := p.text.take place ++ p.text.drop (place + 1), caret := place }

def insertChar (p : Prompt) (c : Char) : Prompt :=
  { p with text := p.text.take p.caret ++ c :: p.text.drop p.caret, caret := p.caret + 1 }

def edit (p : Prompt) : Edit → Step
  | .accept => .accepted p.text.trim
  | .cancel => .cancelled
  | .dropBefore => .editing (if p.caret = 0 then p else p.dropChar (p.caret - 1))
  | .dropAt => .editing (if p.caret < p.text.length then p.dropChar p.caret else p)
  | .left => .editing { p with caret := p.caret - 1 }
  | .right => .editing { p with caret := min p.text.length (p.caret + 1) }
  | .toStart => .editing { p with caret := 0 }
  | .toEnd => .editing { p with caret := p.text.length }
  | .type c => .editing (p.insertChar c)

def press (p : Prompt) (key : Int) : Step :=
  match Edit.ofKey key with
  | none => .editing p
  | some e => p.edit e

/-- The columns the text may take, at least five. -/
def room (p : Prompt) (size : ScreenSize) : Nat :=
  (max 5 (size.columns - 1 - p.label.length)).toNat

/-- How many characters of the text are out of sight on the left. -/
def scroll (p : Prompt) (size : ScreenSize) : Nat := p.caret + 1 - p.room size

def shownText (p : Prompt) (size : ScreenSize) : Text :=
  (p.text.drop (p.scroll size)).take (p.room size)

def shownLine (p : Prompt) (size : ScreenSize) : Text :=
  Text.upTo (p.label ++ p.shownText size) (size.columns - 1)

def caretColumn (p : Prompt) (size : ScreenSize) : Int :=
  max 0 (min (p.label.length + p.caret - p.scroll size) (size.columns - 1 - 1))

def draw (p : Prompt) (size : ScreenSize) (theme : Theme) : List ScreenCall :=
  let y := size.rows - 1
  [.moveTo y 0, .clearToEndOfLine,
   .addTextUpTo y 0 (p.shownLine size) (size.columns - 1)
     (Attr.union theme.reversed theme.filtered),
   .moveTo y (p.caretColumn size)]

def opening : List ScreenCall := [.showCursor 1, .waitAtMost (-1)]

def closing : List ScreenCall := [.showCursor 0]

/-- How reading a line ended: with what was entered, without, or with no more keys to read. -/
inductive Ending where
  | accepted (text : Text)
  | cancelled
  | outOfKeys
deriving DecidableEq, Repr

/-- The line read from the given keys: what it drew, how it ended, and the keys left over. -/
def read (size : ScreenSize) (theme : Theme) (p : Prompt) :
    List Int → List ScreenCall × Ending × List Int
  | [] => (p.draw size theme, .outOfKeys, [])
  | key :: keys =>
    let drawn := p.draw size theme ++ [.readKey key]
    match p.press key with
    | .accepted text => (drawn ++ closing, .accepted text, keys)
    | .cancelled => (drawn ++ closing, .cancelled, keys)
    | .editing q =>
      let (calls, ending, rest) := read size theme q keys
      (drawn ++ calls, ending, rest)

end Prompt

end DockConsole
