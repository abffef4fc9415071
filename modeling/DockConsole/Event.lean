import DockConsole.Daemon.Network
import DockConsole.Log
import DockConsole.Screen

/-!
What the program does to its surroundings, in order.
-/

namespace DockConsole

inductive Event where
  /-- A request went out to the daemon. -/
  | request (r : Request)
  /-- The program rested before it tried again. -/
  | pause (seconds : Float)
  /-- The refresh loop waited for its next round. -/
  | wait (seconds : Float)
  | log (record : LogRecord)
  | screen (call : ScreenCall)

namespace Event

def logged (level : Int) (message : Text) : Event := log ⟨level, message⟩

/-- What the log got to see. -/
def record? : Event → Option LogRecord
  | log r => some r
  | _ => none

def request? : Event → Option Request
  | request r => some r
  | _ => none

def call? : Event → Option ScreenCall
  | screen c => some c
  | _ => none

end Event

end DockConsole
