import DockConsole.Json
import DockConsole.Text.Quoted

/-!
The text of a value inside a line of text.

A text shows as it is at the top and in quotes inside a list or an object.
-/

namespace DockConsole

namespace Json

mutual

def nested : Json → Text
  | null => "None".toList
  | bool true => "True".toList
  | bool false => "False".toList
  | num n => n.shown
  | str s => s.quoted
  | arr items => ['['] ++ List.intercalate ", ".toList (nestedItems items) ++ [']']
  | obj fields => ['\x7b'] ++ List.intercalate ", ".toList (nestedFields fields) ++ ['\x7d']

def nestedItems : List Json → List Text
  | [] => []
  | v :: vs => nested v :: nestedItems vs

def nestedFields : List (Text × Json) → List Text
  | [] => []
  | (name, v) :: fs => (name.quoted ++ ": ".toList ++ nested v) :: nestedFields fs

end

def shown : Json → Text
  | str s => s
  | v => nested v

/-- The text of a member; a missing one shows as `default`. -/
def shownAt (v : Json) (name default : Text) : Text := ((v.get? name).map shown).getD default

end Json

end DockConsole
