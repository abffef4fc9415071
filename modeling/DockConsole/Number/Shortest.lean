import DockConsole.Number.Binary
import DockConsole.Text

/-!
The shortest decimal that is read as a given binary number.

The decimals with ever more digits are tried in turn. On the grid of each length only the two
neighbours of the number matter: if any point of the grid is read as the number, so is one of them.
-/

namespace DockConsole.Shortest

/-- The number is `mantissa * up / down` steps of the grid `10 ^ k`. -/
def up (b : Binary) (k : Int) : Nat := Nat.pow 10 (-k).toNat <<< b.exponent.toNat

def down (b : Binary) (k : Int) : Nat := Nat.pow 10 k.toNat <<< (-b.exponent).toNat

/-- Whether `n * 10 ^ k` is read as `b`: it is no further away than half of the way to the next
number on its side. Half of the way belongs to the number whose mantissa is even. -/
def readsBack (b : Binary) (k : Int) (n : Nat) : Bool :=
  let low := (4 * b.mantissa - if b.narrow then 1 else 2) * up b k
  let high := (4 * b.mantissa + 2) * up b k
  let x := 4 * n * down b k
  if b.mantissa % 2 = 0 then low ≤ x && x ≤ high else low < x && x < high

/-- The point of the grid `10 ^ k` nearest to `b`, if it is read as `b`; else its other neighbour. -/
def onGrid (b : Binary) (k : Int) : Option Nat :=
  let num := b.mantissa * up b k
  let below := num / down b k
  match readsBack b k below, readsBack b k (below + 1) with
  | true, true => some (roundDiv num (down b k))
  | true, false => some below
  | false, true => some (below + 1)
  | false, false => none

/-- How many digits stand in front of the point: none from a tenth to 1, and fewer below. No number
other than zero is below `10 ^ -330`. -/
def places (b : Binary) : Int :=
  (Nat.toDigits 10 (b.mantissa * up b (-330) / down b (-330))).length - 330

/-- The exact value, as a whole number of steps of a grid. -/
def exact (b : Binary) : Nat × Int :=
  if 0 ≤ b.exponent then (b.mantissa <<< b.exponent.toNat, 0)
  else (b.mantissa * Nat.pow 5 (-b.exponent).toNat, b.exponent)

/-- The shortest decimal `n * 10 ^ k`; seventeen digits are enough for every number. -/
def decimal (b : Binary) : Nat × Int :=
  ((List.range 17).findSome? fun (n : Nat) =>
    let k := places b - (n + 1 : Nat)
    (onGrid b k).map (·, k)).getD (exact b)

/-- The digits without zeros at their end, and the place of the point among them. -/
def digits (b : Binary) : Text × Int :=
  let (n, k) := decimal b
  let s := Text.ofNat n
  (Text.trimEnd (· = '0') s, s.length + k)

/-- Positional from a ten-thousandth up to below `10 ^ 16`, with at least one digit on either side
of the point. -/
def positional (s : Text) (point : Int) : Text :=
  if point ≤ 0 then ['0', '.'] ++ List.replicate (-point).toNat '0' ++ s
  else if s.length ≤ point then s ++ List.replicate (point.toNat - s.length) '0' ++ ['.', '0']
  else s.take point.toNat ++ ['.'] ++ s.drop point.toNat

/-- One digit in front of the point, and an exponent with a sign and at least two digits. -/
def withExponent (s : Text) (point : Int) : Text :=
  let exponent := Text.ofNat (point - 1).natAbs
  s.take 1 ++ (if s.length ≤ 1 then [] else '.' :: s.drop 1) ++
    ['e', if point < 1 then '-' else '+'] ++ List.replicate (2 - exponent.length) '0' ++ exponent

def shown (x : Float) : Text :=
  if x.isNaN then "nan".toList
  else
    let sign := if Binary.isNegative x.toBits then ['-'] else []
    if x.isInf then sign ++ "inf".toList
    else if x == 0 then sign ++ "0.0".toList
    else
      let (s, point) := digits (Binary.ofBits x.toBits)
      sign ++ if -4 < point ∧ point ≤ 16 then positional s point else withExponent s point

end DockConsole.Shortest
