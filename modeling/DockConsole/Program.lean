import DockConsole.App.Run
import DockConsole.Log.Logger
import DockConsole.Options

/-!
The whole program, from its command line to its exit.

What it logs goes to the log file, and to the terminal as long as the screen does not own it.
-/

namespace DockConsole

/-- The program under way: its run, and the log of all that was done so far. -/
structure Program where
  run : App.Run
  logger : Log.Logger

namespace Program

inductive Ending where
  | exit (status : Int)
  | app (e : App.Ending)
  | noLogFile (e : Log.OpenError)
  /-- It is not said how often to refresh, not even never. -/
  | noInterval
deriving DecidableEq, Repr

structure Result where
  ending : Ending
  stdout : Text := []
  stderr : Text := []
  files : NameMap Text := {}
  frames : List App.Frame := []
  /-- What was done after the last frame. -/
  tail : List Event := []
  /-- What ended the refresh loop before the end, if anything did. -/
  fallen : Option (Fault × Text) := none

def startNote : LogRecord :=
  ⟨Level.info, "container_browser ".toList ++ Options.version ++ " started".toList⟩

def endNote : LogRecord := ⟨Level.info, "container_browser ended".toList⟩

def records (events : List Event) : List LogRecord := events.filterMap Event.record?

/-- The log file takes what is asked for, the terminal notices and above. -/
def openLog (s : Settings) (l : Log.Logger) : Log.Logger × Except Log.OpenError Unit :=
  match s.logFile.value? with
  | none => (l, .error .unnamed)
  | some file => l.setup file (if s.debug then Level.debug else Level.info) Level.notice

/-- The program before it takes the screen, unless it has ended already. -/
def start (s : Settings) (logger : Log.Logger) (network : Network) (size : ScreenSize)
    (daemon : Text → Daemon := fun host => { host }) : Program :=
  let app := App.start (daemon (Host.normalize s.host.value?)) network size
    (s.refresh.value?.getD 0) s.showAll
  let run := app.launch (s.filter.value?.getD [])
  { run, logger := (logger.record startNote).recordAll (records run.events) }

/-- The run has gone on, and the log learns what was done. -/
def proceed (p : Program) (run : App.Run) : Program :=
  { run, logger := p.logger.recordAll (records (run.events.drop p.run.events.length)) }

def takeScreen (p : Program) (colours : Bool) : Program :=
  { p with logger := p.logger.setStdoutThreshold Level.silent }.proceed
    (App.takeScreen colours p.run)

def step (p : Program) (h : App.Happening) : Program := p.proceed (p.run.step h)

/-- What there is to see of a program that ended. -/
def result (p : Program) (ending : Ending) : Result where
  ending
  stdout := p.logger.stdout
  stderr := p.run.stderr
  files := p.logger.files
  frames := p.run.allFrames
  tail := p.run.since
  fallen := p.run.fallen

/-- The terminal gets its level back. Only an orderly end is logged. -/
def finish (p : Program) (stdoutLevel : Int) : Result :=
  let p : Program := { run := p.run.finish, logger := p.logger.setStdoutThreshold stdoutLevel }
  match p.run.ending with
  | some (.exit status) => { p with logger := p.logger.record endNote }.result (.exit status)
  | some e => p.result (.app e)
  | none => p.result (.app .outOfKeys)

/-- The program with the given arguments and host variable, over a script of what happens. It logs to
the files of the given logger. -/
def perform (args : List Text) (host : Option Text) (network : Network) (size : ScreenSize)
    (colours : Bool) (script : List App.Happening) (logger : Log.Logger := {}) : Result :=
  match Options.read args host with
  | .error stop =>
    let (status, stdout, stderr) := Options.answer stop
    { ending := .exit status, stdout, stderr }
  | .ok s =>
    match openLog s logger with
    | (logger, .error e) =>
      { ending := .noLogFile e, stdout := logger.stdout, files := logger.files }
    | (logger, .ok ()) =>
      let p := start s logger network size
      if s.refresh.value?.isNone ∧ p.run.ending.isNone then p.result .noInterval
      else (script.foldl step (p.takeScreen colours)).finish logger.stdoutThreshold

end Program

end DockConsole
