import DockConsole.Json.Kind
import DockConsole.Json.Shown
import DockConsole.Screen

/-!
Pages that cover the screen until a key is hit: the help, and the details of a container.
-/

namespace DockConsole.Page

def help : List Text :=
  ["Docker Containers Browser Help", "", "Navigation:", "  ↑/↓ : Move selection",
   "  PgUp/PgDn : Page up/down", "  Home/End : Jump to first/last",
   "  Enter : Inspect selected container", "", "Sorting and filtering:",
   "  F1 or s : Rotate sort column (container, image, status, name)",
   "  / : Filter on container name (literal, case-sensitive)", "  C : Clear filter",
   "  % : Toggle show all / running containers", "", "Other:",
   "  F5 or r : Refresh container list", "  q or Q : Quit", "  ? : Show this help", "",
   "Color legend:", "  Green    = Running", "  Red      = Not running",
   "  Cyan     = Active filter", "", "", "Hit any key to close this help"].map (·.toList)

/-- A part of an answer that is missing or holds nothing has no members. -/
def part (v : Json) (name : Text) : Json := (v.get? name).getD .null

/-- The details worth showing. A member that is missing shows as nothing. -/
def details (v : Json) : List Text :=
  let config := part v "Config".toList
  let state := part v "State".toList
  let network := part v "NetworkSettings".toList
  let member (label : String) (v : Json) (name : String) : Text :=
    label.toList ++ v.shownAt name.toList []
  ["Container ".toList ++ (v.shownAt "Name".toList []).trimStart (· = '/'),
   [],
   member "  Id:         " v "Id",
   member "  Image:      " config "Image",
   member "  Created:    " v "Created",
   member "  Status:     " state "Status",
   member "  Started:    " state "StartedAt",
   member "  Exit code:  " state "ExitCode",
   member "  IP address: " network "IPAddress",
   "  Cmd:        ".toList ++
     List.intercalate [' '] ((part config "Cmd".toList).items.map Json.shown),
   [],
   "  Env:".toList] ++
  (part config "Env".toList).items.map (fun e => "    ".toList ++ e.shown) ++
  [[], "Hit any key to close".toList]

/-- What keeps the details from being shown, if anything. The parts of an answer have to be objects,
the name a text, the command a list of texts, and the environment a list. -/
def misfit? (v : Json) : Option (Fault × Text) :=
  let config := part v "Config".toList
  [((v.get? "Name".toList).getD (.str [])).untrimmed?,
   config.unread?,
   (part v "State".toList).unread?,
   (part v "NetworkSettings".toList).unread?,
   (part config "Cmd".toList).unjoined?,
   (part config "Env".toList).unlisted?].findSome? id

def drawLines (size : ScreenSize) (attr rest y : Int) : List Text → List ScreenCall
  | [] => []
  | l :: ls => Screen.addClipped size y 0 l attr ++ drawLines size rest rest (y + 1) ls

/-- The lines from the top of an empty screen; then the screen waits for a key without limit. -/
def draw (size : ScreenSize) (theme : Theme) (lines : List Text) : List ScreenCall :=
  [.erase] ++ drawLines size theme.title 0 0 lines ++ [.refresh, .waitAtMost (-1)]

/-- A page shown to someone who hits the given keys: it takes one of them, if there is one. -/
def present (size : ScreenSize) (theme : Theme) (lines : List Text) :
    List Int → List ScreenCall × Option (List Int)
  | [] => (draw size theme lines, none)
  | key :: keys => (draw size theme lines ++ [.readKey key], some keys)

end DockConsole.Page
