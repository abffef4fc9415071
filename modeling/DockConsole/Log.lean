import DockConsole.Text

/-!
Records for the log, and their levels.

Levels are numbers, larger ones more urgent. Notices stand between information and warnings: they
are what a user should see on the terminal once the screen is free again.
-/

namespace DockConsole

namespace Level

def debug : Int := 10
def info : Int := 20
def notice : Int := 25
def warning : Int := 30
def error : Int := 40
def critical : Int := 50

/-- Above every level in use: a threshold that lets nothing through. -/
def silent : Int := critical + 1

def named : List (Int × Text) :=
  [(0, "NOTSET".toList), (debug, "DEBUG".toList), (info, "INFO".toList),
   (notice, "NOTICE".toList), (warning, "WARNING".toList), (error, "ERROR".toList),
   (critical, "CRITICAL".toList)]

def label (level : Int) : Text :=
  (named.lookup level).getD ("Level ".toList ++ Text.ofInt level)

end Level

/-- The file that is written unless another is named. -/
def Log.defaultFile : Text := "container_browser.log".toList

structure LogRecord where
  level : Int
  message : Text
deriving DecidableEq, Repr

end DockConsole
