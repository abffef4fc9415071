import DockConsole.Text

/-!
White space: the characters of Unicode class `White_Space`, and the four separators
U+001C to U+001F, which count as white space here as well.
-/

namespace DockConsole.Text

def isBlank (c : Char) : Bool :=
  let n := c.toNat
  (9 ≤ n && n ≤ 13) || (28 ≤ n && n ≤ 32) || n = 0x85 || n = 0xa0 || n = 0x1680 ||
    (0x2000 ≤ n && n ≤ 0x200a) || n = 0x2028 || n = 0x2029 || n = 0x202f || n = 0x205f ||
    n = 0x3000

def trim (s : Text) : Text := (s.trimStart isBlank).trimEnd isBlank

end DockConsole.Text
