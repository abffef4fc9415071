/-!
What the keys of the list mean.
-/

namespace DockConsole

inductive Motion where
  | up
  | down
  | pageUp
  | pageDown
  | first
  | last
deriving DecidableEq, Repr

def Motion.ofKey (key : Int) : Option Motion :=
  if key = 258 then some .down
  else if key = 259 then some .up
  else if key = 262 then some .first
  else if key = 338 then some .pageDown
  else if key = 339 then some .pageUp
  else if key = 360 then some .last
  else none

inductive Command where
  | move (m : Motion)
  | inspect
  | rotateSort
  | editFilter
  | clearFilter
  | toggleShowAll
  | reload
  | help
  | quit
deriving DecidableEq, Repr

/-- Cursor keys move, Enter inspects, and the rest are letters, signs and function keys. -/
def Command.ofKey (key : Int) : Option Command :=
  match Motion.ofKey key with
  | some m => some (.move m)
  | none =>
    if key = 343 ∨ key = 10 ∨ key = 13 then some .inspect
    else if key = 265 ∨ key = 's'.toNat then some .rotateSort
    else if key = '/'.toNat then some .editFilter
    else if key = 'C'.toNat then some .clearFilter
    else if key = '%'.toNat then some .toggleShowAll
    else if key = 269 ∨ key = 'r'.toNat then some .reload
    else if key = '?'.toNat then some .help
    else if key = 'q'.toNat ∨ key = 'Q'.toNat then some .quit
    else none

end DockConsole
