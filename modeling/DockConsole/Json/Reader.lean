import DockConsole.Json
import DockConsole.NameMap

/-!
Values read from their notation.

A name that comes twice in an object keeps its first place and takes its last value.
-/

namespace DockConsole.Json

namespace Reader

def skip (s : Text) : Text := s.dropWhile fun c => c = ' ' || c = '\t' || c = '\n' || c = '\r'

def hexValue? (c : Char) : Option Nat :=
  if c.isDigit then some (c.toNat - '0'.toNat)
  else if 'a' ≤ c ∧ c ≤ 'f' then some (c.toNat - 'a'.toNat + 10)
  else if 'A' ≤ c ∧ c ≤ 'F' then some (c.toNat - 'A'.toNat + 10)
  else none

def escapes : List (Char × Char) :=
  [('"', '"'), ('\\', '\\'), ('/', '/'), ('b', '\x08'), ('f', '\x0c'), ('n', '\n'), ('r', '\r'),
   ('t', '\t')]

/-- The code units up to the closing quote, and what follows it. -/
def units : Text → Option (List Nat × Text)
  | [] => none
  | '"' :: s => some ([], s)
  | '\\' :: 'u' :: a :: b :: c :: d :: s => do
    let unit := (← hexValue? a) * 4096 + (← hexValue? b) * 256 + (← hexValue? c) * 16 + (← hexValue? d)
    let (us, rest) ← units s
    some (unit :: us, rest)
  | '\\' :: c :: s => do
    let e ← escapes.lookup c
    let (us, rest) ← units s
    some (e.toNat :: us, rest)
  | c :: s => if c < ' ' then none else (units s).map fun (us, rest) => (c.toNat :: us, rest)

/-- A surrogate that stands alone is no character, and is replaced. -/
def lone (u : Nat) : Char := if 0xd800 ≤ u ∧ u < 0xe000 then '\ufffd' else Char.ofNat u

/-- A high surrogate and the low one after it are one character. -/
def join : List Nat → Text
  | [] => []
  | [u] => [lone u]
  | u :: v :: us =>
    if 0xd800 ≤ u ∧ u < 0xdc00 ∧ 0xdc00 ≤ v ∧ v < 0xe000 then
      Char.ofNat (0x10000 + (u - 0xd800) * 0x400 + (v - 0xdc00)) :: join us
    else lone u :: join (v :: us)

def text (s : Text) : Option (Text × Text) := (units s).map fun (us, rest) => (join us, rest)

/-- The digits at the start of a text, and what follows them. -/
def digits (s : Text) : Text × Text := (s.takeWhile Char.isDigit, s.dropWhile Char.isDigit)

/-- A point with digits, if there is one. -/
def fraction : Text → Option (Option Text × Text)
  | '.' :: s =>
    let (ds, rest) := digits s
    if ds.isEmpty then none else some (some ds, rest)
  | s => some (none, s)

/-- An exponent, if there is one. -/
def exponent : Text → Option (Option Int × Text)
  | [] => some (none, [])
  | c :: s =>
    if c = 'e' ∨ c = 'E' then
      let (negative, s) := match s with
        | '-' :: s => (true, s)
        | '+' :: s => (false, s)
        | s => (false, s)
      let (ds, rest) := digits s
      if ds.isEmpty then none
      else
        let n : Int := Text.readNat ds
        some (some (if negative then -n else n), rest)
    else some (none, c :: s)

/-- A number is whole if it has neither a point nor an exponent. A zero at its start is the only
digit in front of them. -/
def unsigned (negative : Bool) (s : Text) : Option (Number × Text) := do
  let (whole, rest) := digits s
  if whole.isEmpty ∨ (whole.head? = some '0' ∧ 1 < whole.length) then none
  else
    let (places, rest) ← fraction rest
    let (power, rest) ← exponent rest
    if places.isNone ∧ power.isNone then
      let n : Int := Text.readNat whole
      some (.whole (if negative then -n else n), rest)
    else
      let ds := places.getD []
      let x := Binary.nearest (Text.readNat (whole ++ ds)) (power.getD 0 - ds.length)
      some (.real (if negative then -x else x), rest)

def number : Text → Option (Number × Text)
  | '-' :: s => unsigned true s
  | s => unsigned false s

/-- The numbers that have no digits. -/
def words : List (Text × Float) :=
  [("NaN".toList, 0.0 / 0.0), ("Infinity".toList, 1.0 / 0.0), ("-Infinity".toList, -1.0 / 0.0)]

def numberOrWord (s : Text) : Option (Number × Text) :=
  match words.find? (·.1.isPrefixOf s) with
  | some (word, x) => some (.real x, s.drop word.length)
  | none => number s

mutual

/-- The value at the start of a text, and what follows it. -/
def value : Nat → Text → Option (Json × Text)
  | 0, _ => none
  | fuel + 1, s =>
    match skip s with
    | 'n' :: 'u' :: 'l' :: 'l' :: s => some (null, s)
    | 't' :: 'r' :: 'u' :: 'e' :: s => some (bool true, s)
    | 'f' :: 'a' :: 'l' :: 's' :: 'e' :: s => some (bool false, s)
    | '"' :: s => (text s).map fun (t, s) => (str t, s)
    | '[' :: s =>
      match skip s with
      | ']' :: s => some (arr [], s)
      | s => (elements fuel s).map fun (vs, s) => (arr vs, s)
    | '\x7b' :: s =>
      match skip s with
      | '\x7d' :: s => some (obj [], s)
      | s => (members fuel s).map fun (ms, s) => (obj (NameMap.ofList ms).entries, s)
    | s => (numberOrWord s).map fun (n, s) => (num n, s)

def elements : Nat → Text → Option (List Json × Text)
  | 0, _ => none
  | fuel + 1, s => do
    let (v, s) ← value fuel s
    match skip s with
    | ',' :: s => (elements fuel s).map fun (vs, s) => (v :: vs, s)
    | ']' :: s => some ([v], s)
    | _ => none

def members : Nat → Text → Option (List (Text × Json) × Text)
  | 0, _ => none
  | fuel + 1, s =>
    match skip s with
    | '"' :: s => do
      let (name, s) ← text s
      match skip s with
      | ':' :: s =>
        let (v, s) ← value fuel s
        match skip s with
        | ',' :: s => (members fuel s).map fun (ms, s) => ((name, v) :: ms, s)
        | '\x7d' :: s => some ([(name, v)], s)
        | _ => none
      | _ => none
    | _ => none

end

end Reader

/-- The value that a text is the notation of. No part of a value is deeper than it is long. -/
def read? (s : Text) : Option Json := do
  let (v, rest) ← Reader.value (2 * s.length + 2) s
  if (Reader.skip rest).isEmpty then some v else none

end DockConsole.Json
