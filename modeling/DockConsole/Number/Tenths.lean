import DockConsole.Number.Binary
import DockConsole.Text

/-!
Numbers with one decimal place.

The exact value of the binary number is rounded to the nearest tenth, and a tie goes to the even
neighbour.
-/

namespace DockConsole.Tenths

def ofBits (bits : UInt64) : Nat :=
  let b := Binary.ofBits bits
  if 0 ≤ b.exponent then (b.mantissa <<< b.exponent.toNat) * 10
  else roundDiv (b.mantissa * 10) (1 <<< (-b.exponent).toNat)

def shown (x : Float) : Text :=
  if x.isNaN then "nan".toList
  else
    let sign := if Binary.isNegative x.toBits then ['-'] else []
    if x.isInf then sign ++ "inf".toList
    else
      let n := ofBits x.toBits
      sign ++ Text.ofNat (n / 10) ++ ['.'] ++ Text.ofNat (n % 10)

end DockConsole.Tenths
