/-!
Text as a list of code points.

Lengths, cuts and positions count code points, and the order of lists of characters is the
lexicographic order of code points, so a text is simply its list of characters.
-/

namespace DockConsole

abbrev Text := List Char

namespace Text

/-- The order of the library is named, so that no other is taken where more is imported. -/
instance : LE Text := List.instLE

instance : DecidableLE Text := List.decidableLE

/-- The part before `stop`; a negative `stop` counts back from the end. -/
def upTo (s : Text) (stop : Int) : Text :=
  s.take (if 0 ≤ stop then stop.toNat else s.length - (-stop).toNat)

/-- Blanks are appended until the text is `width` long. -/
def padTo (s : Text) (width : Int) : Text :=
  s ++ List.replicate (width.toNat - s.length) ' '

/-- Whether `part` occurs in `s` as a run of adjacent characters. -/
def includes : Text → Text → Bool
  | [], part => part.isEmpty
  | c :: s, part => part.isPrefixOf (c :: s) || includes s part

def trimStart (p : Char → Bool) (s : Text) : Text := s.dropWhile p

def trimEnd (p : Char → Bool) (s : Text) : Text := (s.reverse.dropWhile p).reverse

/-- The parts between the separators: one more than there are separators. -/
def pieces (sep : Char) : Text → List Text
  | [] => [[]]
  | c :: s =>
    if c = sep then [] :: pieces sep s
    else
      match pieces sep s with
      | [] => [[c]]
      | p :: ps => (c :: p) :: ps

def ofNat (n : Nat) : Text := Nat.toDigits 10 n

/-- What decimal digits stand for. -/
def readNat (digits : Text) : Nat := Nat.ofDigitChars 10 digits 0

def ofInt : Int → Text
  | .ofNat n => ofNat n
  | .negSucc n => '-' :: ofNat (n + 1)

/-- Every line ends in a line feed. -/
def lines (ls : List Text) : Text := ls.flatMap (· ++ ['\n'])

end Text

end DockConsole
