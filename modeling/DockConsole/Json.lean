import DockConsole.Number

/-!
Values of the daemon's answers, and the text a value shows as.
-/

namespace DockConsole

inductive Json where
  | null
  | bool (b : Bool)
  | num (n : Number)
  | str (s : Text)
  | arr (items : List Json)
  | obj (fields : List (Text × Json))
deriving Repr, Inhabited

namespace Json

def ofInt (n : Int) : Json := num (.whole n)

/-- Nothing, zero and whatever is empty count as false. -/
def truthy : Json → Bool
  | null => false
  | bool b => b
  | num n => !n.isZero
  | str s => !s.isEmpty
  | arr items => !items.isEmpty
  | obj fields => !fields.isEmpty

def get? (v : Json) (name : Text) : Option Json :=
  match v with
  | obj fields => fields.lookup name
  | _ => none

/-- A text as it is; anything else has none. -/
def text : Json → Text
  | str s => s
  | _ => []

def isText : Json → Bool
  | str _ => true
  | _ => false

/-- The elements of a list, the characters of a text, the names in an object. -/
def items : Json → List Json
  | arr items => items
  | str s => s.map fun c => str [c]
  | obj fields => fields.map fun f => str f.1
  | _ => []

end Json

end DockConsole
