import DockConsole.Screen

/-!
Screen calls as control sequences of an ANSI terminal, and keys from the bytes it sends.
-/

namespace DockConsole

/-- The colours of each pair, and how long the screen waits for a key. -/
structure Terminal where
  pairs : List (Int × Int × Int) := []
  patience : Int := -1
deriving Repr

namespace Terminal

def escape (s : Text) : Text := '\x1b' :: '[' :: s

/-- The code of a colour counts from `base`; -1 is the terminal's own colour. -/
def colour (base n : Int) : Text := Text.ofInt (base + if n < 0 then 9 else n)

/-- Whether an attribute has the given bit, a power of two. -/
def hasBit (attr bit : Int) : Bool := attr / bit % 2 = 1

/-- What to switch on for an attribute. -/
def codes (t : Terminal) (attr : Int) : List Text :=
  (if hasBit attr Attr.bold then [['1']] else []) ++
  (if hasBit attr Attr.underline then [['4']] else []) ++
  (if hasBit attr Attr.reverse then [['7']] else []) ++
  match t.pairs.lookup (attr / Attr.pair 1 % 256) with
  | some (foreground, background) => [colour 30 foreground, colour 40 background]
  | none => []

def moveTo (y x : Int) : Text :=
  escape (Text.ofInt (y + 1) ++ [';'] ++ Text.ofInt (x + 1) ++ ['H'])

def put (t : Terminal) (y x : Int) (text : Text) (attr : Int) : Text :=
  moveTo y x ++ escape (List.intercalate [';'] (['0'] :: t.codes attr) ++ ['m']) ++ text ++
    escape ['m']

/-- What a call sends, and the terminal after it. -/
def call (t : Terminal) : ScreenCall → Terminal × Text
  | .addText y x text attr => (t, t.put y x text attr)
  | .addTextUpTo y x text limit attr => (t, t.put y x (Text.upTo text limit) attr)
  | .moveTo y x => (t, moveTo y x)
  | .clearToEndOfLine => (t, escape ['K'])
  | .erase => (t, escape ['H'] ++ escape ['2', 'J'])
  | .showCursor visibility =>
    (t, escape ("?25".toList ++ [if visibility = 0 then 'l' else 'h']))
  | .waitAtMost milliseconds => ({ t with patience := milliseconds }, [])
  | .setPair pair foreground background =>
    ({ t with pairs := (pair, foreground, background) :: t.pairs }, [])
  | .refresh | .keypad _ | .readKey _ | .startColor | .useDefaultColors => (t, [])

def calls (t : Terminal) : List ScreenCall → Terminal × Text
  | [] => (t, [])
  | c :: cs =>
    let (t, sent) := t.call c
    let (t, rest) := t.calls cs
    (t, sent ++ rest)

/-- What a terminal sends for keys that have no character. -/
def sequences : List (Text × Int) :=
  [("\x1b[A".toList, 259), ("\x1bOA".toList, 259), ("\x1b[B".toList, 258), ("\x1bOB".toList, 258),
   ("\x1b[C".toList, 261), ("\x1bOC".toList, 261), ("\x1b[D".toList, 260), ("\x1bOD".toList, 260),
   ("\x1b[H".toList, 262), ("\x1bOH".toList, 262), ("\x1b[1~".toList, 262),
   ("\x1b[F".toList, 360), ("\x1bOF".toList, 360), ("\x1b[4~".toList, 360),
   ("\x1b[3~".toList, 330), ("\x1b[5~".toList, 339), ("\x1b[6~".toList, 338),
   ("\x1bOP".toList, 265), ("\x1b[11~".toList, 265), ("\x1b[15~".toList, 269)]

/-- The first key of what was sent, one character for each byte, and what is left. -/
def nextKey : Text → Option (Int × Text)
  | [] => none
  | c :: s =>
    match sequences.find? (·.1.isPrefixOf (c :: s)) with
    | some (sent, key) => some (key, (c :: s).drop sent.length)
    | none => some (c.toNat, s)

/-- Whether more bytes could make a longer sequence. -/
def isPartial (s : Text) : Bool :=
  !s.isEmpty && sequences.any fun q => s.isPrefixOf q.1 && s.length < q.1.length

/-- An empty screen with its cursor, for whoever comes next. -/
def leave : Text := escape ['m'] ++ escape "?25h".toList ++ escape ['H'] ++ escape ['2', 'J']

end Terminal

end DockConsole
