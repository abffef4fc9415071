import DockConsole.Text
import DockConsole.Text.Printable

/-!
Text in quotes, as messages show it.

Apostrophes are the quotes, unless the text holds an apostrophe and no double quote. The quote and
the backslash are escaped, and so is whatever does not show as itself.
-/

namespace DockConsole.Text

/-- The last `places` hexadecimal digits of `n`. -/
def hexDigits (places n : Nat) : Text :=
  let digits := Nat.toDigits 16 n
  List.replicate (places - digits.length) '0' ++ digits

def quote (s : Text) : Char := if '\'' ∈ s ∧ '"' ∉ s then '"' else '\''

/-- The characters for which `shows` is false are written by their numbers. -/
def escape (shows : Char → Bool) (quote c : Char) : Text :=
  if c = quote ∨ c = '\\' then ['\\', c]
  else if c = '\t' then ['\\', 't']
  else if c = '\n' then ['\\', 'n']
  else if c = '\r' then ['\\', 'r']
  else if shows c then [c]
  else if c.toNat < 0x100 then ['\\', 'x'] ++ hexDigits 2 c.toNat
  else if c.toNat < 0x10000 then ['\\', 'u'] ++ hexDigits 4 c.toNat
  else ['\\', 'U'] ++ hexDigits 8 c.toNat

def quotedBy (shows : Char → Bool) (s : Text) : Text :=
  [quote s] ++ s.flatMap (escape shows (quote s)) ++ [quote s]

def quoted (s : Text) : Text := quotedBy isPrintable s

def quotedInAscii (s : Text) : Text := quotedBy (fun c => isPrintable c && c.toNat < 0x80) s

end DockConsole.Text
