import DockConsole.Text.Quoted

/-!
Messages with places for arguments: `%s` is the argument as it is, `%r` the argument in quotes, `%a`
the same in ASCII, `%c` an argument of one character, and `%%` a per cent sign. A width pads with
blanks, on the right after a minus sign, and a precision cuts. Arguments have to be as many as
places.
-/

namespace DockConsole.Log.Template

structure Place where
  left : Bool := false
  width : Nat := 0
  precision : Option Nat := none
deriving DecidableEq, Repr

/-- The part of a place that was read last. Only it and later ones may follow. -/
inductive Stage where
  | flags
  | width
  | precision
  | conversion
deriving DecidableEq, Repr

namespace Place

def padded (p : Place) (s : Text) : Text :=
  let pad := List.replicate (p.width - s.length) ' '
  if p.left then s ++ pad else pad ++ s

def shown (p : Place) (s : Text) : Text :=
  p.padded (match p.precision with
    | none => s
    | some n => s.take n)

def digit (c : Char) : Nat := c.toNat - '0'.toNat

/-- A size of numbers, which says nothing about texts. -/
def takeSize (p : Place) (c : Char) : Option (Stage × Place) :=
  if c = 'h' ∨ c = 'l' ∨ c = 'L' then some (.conversion, p) else none

/-- A width or a precision is below `2 ^ 31`. -/
def isTooBig (p : Place) : Bool := 1 <<< 31 ≤ p.width || 1 <<< 31 ≤ p.precision.getD 0

def takePrecision (p : Place) (c : Char) : Option (Stage × Place) :=
  if c.isDigit then
    some (.precision, { p with precision := some (p.precision.getD 0 * 10 + digit c) })
  else p.takeSize c

def takeWidth (p : Place) (c : Char) : Option (Stage × Place) :=
  if c.isDigit then some (.width, { p with width := p.width * 10 + digit c })
  else if c = '.' then some (.precision, { p with precision := some 0 })
  else p.takeSize c

/-- Of the flags only the minus sign says something about texts. -/
def takeFlag (p : Place) (c : Char) : Option (Stage × Place) :=
  if c = '-' then some (.flags, { p with left := true })
  else if c = ' ' ∨ c = '#' ∨ c = '+' ∨ c = '0' then some (.flags, p)
  else p.takeWidth c

/-- The place with one more character, unless that character ends it. -/
def take (p : Place) : Stage → Char → Option (Stage × Place)
  | .flags => p.takeFlag
  | .width => p.takeWidth
  | .precision => p.takePrecision
  | .conversion => fun _ => none

/-- The character that ends a place says how the next argument shows there. -/
def show? (p : Place) : Char → List Text → Option (Text × List Text)
  | 's', a :: args => some (p.shown a, args)
  | 'r', a :: args => some (p.shown a.quoted, args)
  | 'a', a :: args => some (p.shown a.quotedInAscii, args)
  | 'c', [c] :: args => some (p.padded [c], args)
  | _, _ => none

def close (p : Place) (c : Char) (args : List Text) : Option (Text × List Text) :=
  if p.isTooBig then none else p.show? c args

end Place

/-- What is inside of a place is told by the place so far. -/
def scan : Option (Stage × Place) → Text → List Text → Option Text
  | none, [], [] => some []
  | _, [], _ => none
  | none, '%' :: '%' :: s, args => (scan none s args).map ('%' :: ·)
  | none, '%' :: s, args => scan (some (.flags, {})) s args
  | none, c :: s, args => (scan none s args).map (c :: ·)
  | some (stage, p), c :: s, args =>
    match p.take stage c with
    | some next => scan (some next) s args
    | none => (p.close c args).bind fun (shown, args) => (scan none s args).map (shown ++ ·)

/-- Without arguments a message is not a template and stands as it is. -/
def fill (message : Text) (args : List Text) : Option Text :=
  if args.isEmpty then some message else scan none message args

end DockConsole.Log.Template
