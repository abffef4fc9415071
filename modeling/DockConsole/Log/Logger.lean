import DockConsole.Log
import DockConsole.Log.Path
import DockConsole.Log.Template
import DockConsole.NameMap

/-!
The log: where records go, and what has been written there.

A record is written if its level reaches that of the logger, and then by every sink whose own level
it reaches. While a screen program owns the terminal, the terminal's sink lets nothing through.
-/

namespace DockConsole.Log

inductive Target where
  | file (path : Path)
  | stdout
deriving DecidableEq, Repr

structure Sink where
  target : Target
  level : Int
deriving DecidableEq, Repr

structure Logger where
  level : Int := 0
  sinks : List Sink := []
  files : NameMap Text := {}
  stdout : Text := []
  /-- The working directory, from which the names of files are taken. -/
  directory : Text := ['.']
  /-- Other directories that there are. No system goes without these. -/
  directories : List Path := [[Path.root, "dev".toList], [Path.root, "tmp".toList]]
  /-- Files that there are and that are none of the log. -/
  devices : List Path := [[Path.root, "dev".toList, "null".toList]]
  /-- The time that stands in front of the lines of files. -/
  clock : Text := "<time>".toList
deriving Repr

namespace Logger

def name : Text := "container_browser".toList

/-- A logger whose own level is 0 takes the level of warnings. -/
def threshold (l : Logger) : Int := if l.level = 0 then Level.warning else l.level

def accepts (l : Logger) (level : Int) : Bool := 0 < level && l.threshold ≤ level

def fileLine (l : Logger) (r : LogRecord) : Text :=
  List.intercalate " - ".toList [l.clock, Level.label r.level, name, r.message] ++ ['\n']

def append (l : Logger) (path : Path) (text : Text) : Logger :=
  { l with files := l.files.put path.text ((l.files.get? path.text).getD [] ++ text) }

def writeTo (r : LogRecord) (l : Logger) (s : Sink) : Logger :=
  if s.level ≤ r.level then
    match s.target with
    | .file path => l.append path (l.fileLine r)
    | .stdout => { l with stdout := l.stdout ++ r.message ++ ['\n'] }
  else l

def record (l : Logger) (r : LogRecord) : Logger :=
  if l.accepts r.level then l.sinks.foldl (writeTo r) l else l

def recordAll (l : Logger) (rs : List LogRecord) : Logger := rs.foldl record l

def hasSink (l : Logger) (t : Target) : Bool := l.sinks.any (·.target = t)

def attach (l : Logger) (t : Target) (level : Int) : Logger :=
  if l.hasSink t then l else { l with sinks := l.sinks ++ [⟨t, level⟩] }

/-- The path of a file by its name. -/
def pathOf (l : Logger) (file : Text) : Path := Path.absolute l.directory file

/-- What stands at a path. Whatever is on the way to a directory is a directory, and so are the
root and all that is above the working directory. -/
def entry (l : Logger) (p : Path) : Option Path.Entry :=
  if p.all (fun name => Path.isRoot name ∨ name = Path.up) ∨
      (Path.ofText l.directory :: l.directories).any (p.place.isPrefixOf ·.place) then
    some .directory
  else if (l.files.get? p.text).isSome ∨ p.place ∈ l.devices then some .file
  else none

/-- The logger's level is set first, and stays set if the file cannot be opened. What is attached
already is not attached again and keeps its level. -/
def setup (l : Logger) (file : Text) (fileLevel stdoutLevel : Int) :
    Logger × Except OpenError Unit :=
  let path := l.pathOf file
  let l := { l with level := min fileLevel stdoutLevel }
  if l.hasSink (.file path) then (l.attach .stdout stdoutLevel, .ok ())
  else
    match path.check l.entry with
    | .ok () =>
      (((l.append path []).attach (.file path) fileLevel).attach .stdout stdoutLevel, .ok ())
    | .error e => (l, .error e)

def stdoutLevel? (l : Logger) : Option Int :=
  (l.sinks.find? (·.target = .stdout)).map (·.level)

/-- The lowest level printed on the terminal; notices if nothing is printed there yet. -/
def stdoutThreshold (l : Logger) : Int := l.stdoutLevel?.getD Level.notice

def relevel (level : Int) : List Sink → List Sink
  | [] => []
  | s :: ss => if s.target = .stdout then { s with level := level } :: ss else s :: relevel level ss

def setStdoutThreshold (l : Logger) (level : Int) : Logger :=
  { l with sinks := relevel level l.sinks }

end Logger

/-- What a program does with the log. A block that owns the terminal may end in an error. -/
inductive Step where
  | setup (file : Text) (fileLevel stdoutLevel : Int)
  | threshold (level : Int)
  | record (level : Int) (message : Text) (args : List Text)
  | owning (steps : List Step) (error : Option Text)
deriving Inhabited

inductive Result where
  | nothing
  | previous (level : Int)
  | notOpened (e : OpenError)
  | block (inner : List (Result × Logger))
  | failed (why : Text)

namespace Step

mutual

/-- The logger afterwards; its `stdout` holds what this step printed. -/
def run (l : Logger) : Step → Result × Logger
  | .setup file fileLevel stdoutLevel =>
    let (l, result) := { l with stdout := [] }.setup file fileLevel stdoutLevel
    (match result with
      | .ok () => .nothing
      | .error e => .notOpened e, l)
  | .threshold level =>
    (.previous l.stdoutThreshold, { l with stdout := [] }.setStdoutThreshold level)
  | .record level message args =>
    let l := { l with stdout := [] }
    (.nothing,
      match Template.fill message args with
      | some text => l.record ⟨level, text⟩
      | none => l)
  | .owning steps error =>
    let previous := l.stdoutThreshold
    let inner := runAll (l.setStdoutThreshold Level.silent) steps
    let last := (inner.getLast?.map (·.2)).getD (l.setStdoutThreshold Level.silent)
    let printed := inner.flatMap fun r => r.2.stdout
    (match error with
      | some why => .failed why
      | none => .block inner,
      { last.setStdoutThreshold previous with stdout := printed })

def runAll (l : Logger) : List Step → List (Result × Logger)
  | [] => []
  | s :: ss =>
    let r := run l s
    r :: runAll r.2 ss

end

end Step

end DockConsole.Log
