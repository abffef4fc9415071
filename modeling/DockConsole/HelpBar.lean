import DockConsole.Screen

/-!
The last line of the screen: the keys or a message, and the place in the list.
-/

namespace DockConsole.HelpBar

def keys : Text :=
  "F1:Sort /:Filter C:Clear %:All/Running F5:Refresh Enter:Inspect ?:Help q/Q:Quit".toList

/-- The row counted from 1, or 0 of 0. -/
def place (selected count : Int) : Text :=
  "row ".toList ++ Text.ofInt (min (selected + 1) count) ++ ['/'] ++ Text.ofInt count

def text (selected count : Int) (message : Text) (width : Int) : Text :=
  let left := if message.isEmpty then keys else message
  Text.padTo (Text.upTo (left ++ "  ".toList ++ place selected count) width) width

def draw (size : ScreenSize) (theme : Theme) (selected count : Int) (message : Text) :
    List ScreenCall :=
  Screen.addClipped size (size.rows - 1) 0 (text selected count message (size.columns - 1))
    (if theme.helpBar = 0 then theme.reversed else theme.helpBar)

end DockConsole.HelpBar
