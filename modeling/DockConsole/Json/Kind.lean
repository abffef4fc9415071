import DockConsole.Fault
import DockConsole.Json

/-!
The kind of a value, and what goes wrong with a value of another kind than the one expected.
-/

namespace DockConsole.Json

/-- What a complaint calls the value. -/
def kind : Json → Text
  | null => "NoneType".toList
  | bool _ => "bool".toList
  | num (.whole _) => "int".toList
  | num (.real _) => "float".toList
  | str _ => "str".toList
  | arr _ => "list".toList
  | obj _ => "dict".toList

/-- The value is asked for something that its kind does not have. -/
def lacking (v : Json) (member : Text) : Fault × Text :=
  (.attributeError, ['\''] ++ v.kind ++ "' object has no attribute '".toList ++ member ++ ['\''])

/-- A value that stands for members has to be an object, unless it stands for none. -/
def unread? : Json → Option (Fault × Text)
  | obj _ => none
  | v => if v.truthy then some (v.lacking "get".toList) else none

/-- A value that stands for several has to have elements, unless it stands for none. -/
def unlisted? : Json → Option (Fault × Text)
  | arr _ | str _ | obj _ => none
  | v =>
    if v.truthy then
      some (.typeError, ['\''] ++ v.kind ++ "' object is not iterable".toList)
    else none

/-- Only texts and lists have a part up to some place. -/
def uncut? : Json → Option (Fault × Text)
  | str _ | arr _ => none
  | obj _ => some (.typeError, "unhashable type: 'slice'".toList)
  | v => some (.typeError, ['\''] ++ v.kind ++ "' object is not subscriptable".toList)

/-- A text can only be trimmed if it is one. -/
def untrimmed? : Json → Option (Fault × Text)
  | str _ => none
  | v => some (v.lacking "lstrip".toList)

/-- What stands in front of a text has to be one, unless it is nothing. -/
def unaddable? : Json → Option (Fault × Text)
  | str _ => none
  | arr [] => none
  | arr _ => some (.typeError, "can only concatenate list (not \"str\") to list".toList)
  | v =>
    if v.truthy then
      some (.typeError,
        "unsupported operand type(s) for +: '".toList ++ v.kind ++ "' and 'str'".toList)
    else none

/-- The first of some values that is no text, `place` being that of the first of them. -/
def unjoinedFrom? (place : Nat) : List Json → Option (Fault × Text)
  | [] => none
  | str _ :: vs => unjoinedFrom? (place + 1) vs
  | v :: _ =>
    some (.typeError, "sequence item ".toList ++ Text.ofNat place ++
      ": expected str instance, ".toList ++ v.kind ++ " found".toList)

/-- What is put together to one text has to be a list of texts, unless it stands for none. -/
def unjoined? : Json → Option (Fault × Text)
  | arr items => unjoinedFrom? 0 items
  | str _ | obj _ => none
  | v => if v.truthy then some (.typeError, "can only join an iterable".toList) else none

end DockConsole.Json
