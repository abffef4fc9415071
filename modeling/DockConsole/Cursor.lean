/-!
The selected position in a list. It is never negative, but may lie past the end of a list that
got shorter; whoever shows the list clamps it.
-/

namespace DockConsole

structure Cursor where
  position : Nat := 0
deriving DecidableEq, Repr

namespace Cursor

def ofInt (position : Int) : Cursor := ⟨position.toNat⟩

/-- A move of `delta` rows that stays between 0 and `last`. -/
def move (c : Cursor) (delta last : Int) : Cursor := ⟨(min (c.position + delta) last).toNat⟩

def home (_ : Cursor) : Cursor := {}

def toLast (_ : Cursor) (last : Int) : Cursor := ⟨last.toNat⟩

end Cursor

end DockConsole
