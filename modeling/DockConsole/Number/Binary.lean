/-!
Binary numbers of double precision, taken apart exactly and found from decimals.
-/

namespace DockConsole

/-- The nearest whole number to `num / den`; of two equally near the even one. -/
def roundDiv (num den : Nat) : Nat :=
  let q := num / den
  let r := num % den
  if den < 2 * r ∨ (den = 2 * r ∧ q % 2 = 1) then q + 1 else q

/-- The number `mantissa * 2 ^ exponent`. -/
structure Binary where
  mantissa : Nat
  exponent : Int
  /-- The next number below is half as far away as the next one above. -/
  narrow : Bool
deriving DecidableEq, Repr

namespace Binary

/-- A finite number, without its sign. -/
def ofBits (bits : UInt64) : Binary :=
  let field : Nat := (bits.toNat >>> 52) % 2048
  let fraction : Nat := bits.toNat % (1 <<< 52)
  if field = 0 then ⟨fraction, -1074, false⟩
  else ⟨fraction + (1 <<< 52), (field : Int) - 1075, fraction = 0 && 1 < field⟩

def isNegative (bits : UInt64) : Bool := bits.toNat >>> 63 = 1

/-- The number nearest to `mantissa * 10 ^ exponent`. Far beyond the range of numbers there is no
need to look closer. -/
def nearest (mantissa : Nat) (exponent : Int) : Float :=
  let magnitude := (Nat.toDigits 10 mantissa).length + exponent
  if mantissa = 0 ∨ magnitude < -400 then 0
  else if 400 < magnitude then 1.0 / 0.0
  else Float.ofScientific mantissa (exponent < 0) exponent.natAbs

end Binary

end DockConsole
