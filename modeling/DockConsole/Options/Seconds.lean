import DockConsole.Number.Binary
import DockConsole.Text.Blank
import DockConsole.Text.Digit

/-!
Reading a number of seconds.

A number is decimal digits of any script with an optional point and exponent, where an underscore
may stand between two digits; or one of the words `inf`, `infinity` and `nan` in any case. A sign
may come first, and blanks may stand around it all. The value is the binary number nearest to what
is written.
-/

namespace DockConsole.Seconds

/-- Blanks of any kind and digits of any script, as ASCII; other characters beyond ASCII do not
belong into a number. -/
def simplify (c : Char) : Char :=
  if c.toNat < 127 then c
  else if Text.isBlank c then ' '
  else
    match Text.digitValue? c with
    | some d => Char.ofNat ('0'.toNat + d)
    | none => '?'

def isPad (c : Char) : Bool := c = ' ' || (9 ≤ c.toNat && c.toNat ≤ 13)

/-- Without its underscores, if each stands between two digits. -/
def dropUnderscores (afterDigit : Bool) : Text → Option Text
  | [] => some []
  | '_' :: c :: s => if afterDigit && c.isDigit then (dropUnderscores true s).map (c :: ·) else none
  | '_' :: [] => none
  | c :: s => (dropUnderscores c.isDigit s).map (c :: ·)

/-- What an exponent adds: nothing if there is none. -/
def readExponent : Text → Option Int
  | [] => some 0
  | e :: s =>
    if e = 'e' ∨ e = 'E' then
      let (negative, ds) := match s with
        | '-' :: ds => (true, ds)
        | '+' :: ds => (false, ds)
        | ds => (false, ds)
      if ds.isEmpty ∨ ¬ ds.all Char.isDigit then none
      else some (if negative then -Text.readNat ds else Text.readNat ds)
    else none

def readUnsigned (s : Text) : Option Float :=
  let word := s.map Char.toLower
  if word = "inf".toList ∨ word = "infinity".toList then some (1.0 / 0.0)
  else if word = "nan".toList then some (0.0 / 0.0)
  else
    let whole := s.takeWhile Char.isDigit
    let rest := s.dropWhile Char.isDigit
    let (fraction, rest) := match rest with
      | '.' :: r => (r.takeWhile Char.isDigit, r.dropWhile Char.isDigit)
      | r => ([], r)
    if whole.isEmpty ∧ fraction.isEmpty then none
    else
      (readExponent rest).map fun e =>
        Binary.nearest (Text.readNat (whole ++ fraction)) (e - fraction.length)

def read (s : Text) : Option Float :=
  let s := Text.trimEnd isPad (Text.trimStart isPad (s.map simplify))
  (dropUnderscores false s).bind fun s =>
    match s with
    | '-' :: s => (readUnsigned s).map (-·)
    | '+' :: s => readUnsigned s
    | s => readUnsigned s

end DockConsole.Seconds
