import DockConsole.Number.Shortest

/-!
Numbers of answers and settings: whole ones of any size, and binary ones.
-/

namespace DockConsole

inductive Number where
  | whole (n : Int)
  | real (x : Float)
deriving DecidableEq, Repr

namespace Number

def isZero : Number → Bool
  | whole n => n = 0
  | real x => x == 0

def toFloat : Number → Float
  | whole (.ofNat n) => Binary.nearest n 0
  | whole (.negSucc n) => -Binary.nearest (n + 1) 0
  | real x => x

/-- A whole number has no point, and any other has a point or an exponent. -/
def shown : Number → Text
  | whole n => Text.ofInt n
  | real x => Shortest.shown x

end Number

end DockConsole
