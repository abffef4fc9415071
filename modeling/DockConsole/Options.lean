import DockConsole.Log
import DockConsole.Options.Seconds
import DockConsole.Text.Quoted

/-!
The command line.

All arguments are first told apart: options, whose long names may be cut short as long as only one
fits, and values. Then they are read from left to right, and the first help, version or mistake
ends the reading. Arguments that belong to no option are a mistake too, but one found last.
-/

namespace DockConsole

inductive Choice where
  | help
  | host
  | all
  | filter
  | refresh
  | logFile
  | debug
  | version
deriving DecidableEq, Repr

/-- A value that may have been set, or set to nothing. -/
inductive Setting (α : Type) where
  | unset
  | nothing
  | value (a : α)
deriving DecidableEq, Repr

namespace Setting

def value? {α : Type} : Setting α → Option α
  | .value a => some a
  | _ => none

def ofOption {α : Type} : Option α → Setting α
  | some a => .value a
  | none => .unset

end Setting

structure Settings where
  host : Setting Text := .unset
  showAll : Bool := false
  filter : Setting Text := .unset
  refresh : Setting Float := .value 5
  logFile : Setting Text := .value Log.defaultFile
  debug : Bool := false

inductive UsageError where
  | ambiguous (arg : Text) (names : List Text)
  | missingValue (c : Choice)
  | unwantedValue (c : Choice) (value : Text)
  | invalidSeconds (value : Text)
  | unrecognized (args : List Text)
deriving DecidableEq, Repr

/-- Why there are no settings. -/
inductive Stop where
  | help
  | version
  | misuse (e : UsageError)
deriving DecidableEq, Repr

namespace Options

def program : Text := "container-browser".toList

def version : Text := "0.1.0".toList

/-- The names of the options, in the order in which messages list them. -/
def names : List (Text × Choice) :=
  [("-h".toList, .help), ("--help".toList, .help), ("--host".toList, .host),
   ("--all".toList, .all), ("--filter".toList, .filter), ("--refresh".toList, .refresh),
   ("--log-file".toList, .logFile), ("--debug".toList, .debug), ("--version".toList, .version)]

def takesValue : Choice → Bool
  | .host | .filter | .refresh | .logFile => true
  | _ => false

/-- What messages call an option: all its names. -/
def label (c : Choice) : Text :=
  List.intercalate ['/'] ((names.filter (·.2 = c)).map (·.1))

def usage : Text := Text.lines
  ["usage: container-browser [-h] [--host HOST] [--all] [--filter FILTER]".toList,
   "                         [--refresh REFRESH] [--log-file LOG_FILE] [--debug]".toList,
   "                         [--version]".toList]

def help : Text := usage ++ Text.lines (
  ["",
   "Docker containers TUI browser",
   "",
   "options:",
   "  -h, --help           show this help message and exit",
   "  --host HOST          Docker API address (default: $DOCKER_HOST, else",
   "                       http://localhost:2375)",
   "  --all                Show all containers, not only the running ones",
   "  --filter FILTER      Initial container name filter (optional)",
   "  --refresh REFRESH    Seconds between container list refreshes, 0 disables",
   "                       (default: 5)",
   "  --log-file LOG_FILE  Log file (default: container_browser.log)",
   "  --debug              Write debug messages to the log file",
   "  --version            show program's version number and exit",
   "",
   "Filtering:",
   "  The filter is a literal substring matched against the container name (case-sensitive).",
   "  An empty filter shows every container.",
   "",
   "Environment:",
   "  DOCKER_HOST   Docker API address used when --host is not given (tcp:// is read as http://)",
   "",
   "CLI:"].map (·.toList))

def message : UsageError → Text
  | .ambiguous arg names =>
    "ambiguous option: ".toList ++ arg ++ " could match ".toList ++
      List.intercalate ", ".toList names
  | .missingValue c => "argument ".toList ++ label c ++ ": expected one argument".toList
  | .unwantedValue c value =>
    "argument ".toList ++ label c ++ ": ignored explicit argument ".toList ++ value.quoted
  | .invalidSeconds value =>
    "argument ".toList ++ label .refresh ++ ": invalid float value: ".toList ++ value.quoted
  | .unrecognized args => "unrecognized arguments: ".toList ++ List.intercalate [' '] args

/-- What an argument is, before it is known what stands before it. -/
inductive Kind where
  | value
  /-- Two dashes alone: all that follows is values. -/
  | separator
  | option (c : Choice) (name : Text) (attached : Option Text)
  | unknown
deriving DecidableEq, Repr

/-- The parts before and after the first equals sign. -/
def splitEquals (s : Text) : Text × Option Text :=
  match s.dropWhile (· ≠ '=') with
  | [] => (s, none)
  | _ :: value => (s.takeWhile (· ≠ '='), some value)

/-- A minus sign and decimal digits, with at most one point that has a digit after it. -/
def isNegativeNumber (s : Text) : Bool :=
  let isDigit (c : Char) : Bool := (Text.digitValue? c).isSome
  let s := if s.getLast? = some '\n' then s.dropLast else s
  match s with
  | '-' :: s =>
    match s.dropWhile isDigit with
    | [] => !s.isEmpty
    | '.' :: fraction => !fraction.isEmpty && fraction.all isDigit
    | _ => false
  | _ => false

/-- The options that an argument may be short for, with the value attached to it. -/
def candidates (arg : Text) : List (Choice × Text × Option Text) :=
  match arg with
  | '-' :: '-' :: _ =>
    let (stem, value) := splitEquals arg
    (names.filter fun n => stem.isPrefixOf n.1).map fun n => (n.2, n.1, value)
  | _ =>
    (names.filter fun n => n.1 = arg.take 2).map fun n => (n.2, n.1, some (arg.drop 2))

def classify (arg : Text) : Except UsageError Kind :=
  if arg.head? ≠ some '-' ∨ arg.length = 1 then .ok .value
  else
    match names.lookup arg with
    | some c => .ok (.option c arg none)
    | none =>
      let (stem, value) := splitEquals arg
      match names.lookup stem, value with
      | some c, some v => .ok (.option c stem (some v))
      | _, _ =>
        match candidates arg with
        | [(c, name, attached)] => .ok (.option c name attached)
        | [] => .ok (if isNegativeNumber arg ∨ ' ' ∈ arg then .value else .unknown)
        | several => .error (.ambiguous arg (several.map (·.2.1)))

/-- What separates options from values. As a value it stands for nothing. -/
def separator : Text := ['-', '-']

def classifyAll : List Text → Except UsageError (List (Text × Kind))
  | [] => .ok []
  | arg :: args =>
    if arg = separator then .ok ((arg, .separator) :: args.map (·, .value))
    else do
      let kind ← classify arg
      let rest ← classifyAll args
      return (arg, kind) :: rest

def setting (value : Text) : Setting Text := if value = separator then .nothing else .value value

def readSeconds : Setting Text → Except Stop (Setting Float)
  | .unset => .ok .unset
  | .nothing => .ok .nothing
  | .value text =>
    match Seconds.read text with
    | some seconds => .ok (.value seconds)
    | none => .error (.misuse (.invalidSeconds text))

def take (c : Choice) (value : Text) (s : Settings) : Except Stop Settings :=
  match c with
  | .host => .ok { s with host := setting value }
  | .filter => .ok { s with filter := setting value }
  | .logFile => .ok { s with logFile := setting value }
  | .refresh => do
    return { s with refresh := ← readSeconds (setting value) }
  | _ => .ok s

def raise (c : Choice) (s : Settings) : Except Stop Settings :=
  match c with
  | .help => .error .help
  | .version => .error .version
  | .all => .ok { s with showAll := true }
  | .debug => .ok { s with debug := true }
  | _ => .ok s

/-- Text attached to `-h` is more one-letter options, and there is no other than `h`. -/
def cluster (attached : Text) : Stop :=
  match attached.dropWhile (· = 'h') with
  | [] => if attached.isEmpty then .misuse (.unwantedValue .help []) else .help
  | rest => .misuse (.unwantedValue .help rest)

/-- The settings, and the arguments that belong to no option. -/
def readAll : List (Text × Kind) → Settings → Except Stop (Settings × List Text)
  | [], s => .ok (s, [])
  | (_, .option c name (some value)) :: rest, s =>
    if takesValue c then do
      readAll rest (← take c value s)
    else if name = "-h".toList then .error (cluster value)
    else .error (.misuse (.unwantedValue c value))
  | (_, .option c _ none) :: rest, s =>
    if takesValue c then
      match rest with
      | (value, .value) :: rest => do
        readAll rest (← take c value s)
      | _ => .error (.misuse (.missingValue c))
    else do
      readAll rest (← raise c s)
  | (arg, _) :: rest, s => do
    let (s, extra) ← readAll rest s
    return (s, arg :: extra)

/-- The settings for a command line, where `host` is the address to use if none is given. -/
def read (args : List Text) (host : Option Text) : Except Stop Settings :=
  match classifyAll args with
  | .error e => .error (.misuse e)
  | .ok kinds =>
    match readAll kinds { host := .ofOption host } with
    | .error stop => .error stop
    | .ok (s, []) => .ok s
    | .ok (_, extra) => .error (.misuse (.unrecognized extra))

/-- What is printed on the two outputs when there are no settings, and the exit status. -/
def answer : Stop → Int × Text × Text
  | .help => (0, help, [])
  | .version => (0, program ++ [' '] ++ version ++ ['\n'], [])
  | .misuse e => (2, [], usage ++ program ++ ": error: ".toList ++ message e ++ ['\n'])

end Options

end DockConsole
