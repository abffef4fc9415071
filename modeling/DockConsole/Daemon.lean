import DockConsole.Container
import DockConsole.Daemon.Host
import DockConsole.Event
import DockConsole.Number.Tenths
import DockConsole.SortMode

/-!
Asking the daemon for containers and for the details of one.

A request that fails for want of a connection or of time is sent again, up to `retries` times, with
a pause in front of each new attempt that is twice as long as the one before. Any other outcome ends
the attempts.
-/

namespace DockConsole

/-- Which containers are asked for. -/
inductive Selection where
  | unfiltered
  | running
deriving DecidableEq, Repr

/-- Why there is no usable answer. -/
inductive FetchError where
  | unreachable (host : Text) (attempts : List Text)
  | refused (status : Int) (reason url : Text) (attempts : List Text)
  | unreadable (url : Text) (attempts : List Text)
  | unexpectedList (host : Text)
  | unexpectedDetails (id : Text)
deriving DecidableEq, Repr

namespace FetchError

def message : FetchError → Text
  | unreachable host _ => "Could not reach the Docker daemon at ".toList ++ host
  | refused status reason url _ =>
    "HTTP ".toList ++ Text.ofInt status ++ [' '] ++ reason ++ " for ".toList ++ url
  | unreadable url _ => "Invalid JSON from ".toList ++ url
  | unexpectedList host =>
    "Unexpected answer from ".toList ++ host ++ "/containers/json".toList
  | unexpectedDetails id => "Unexpected answer inspecting container ".toList ++ id

/-- One line for each attempt that the error reports. -/
def attempts : FetchError → List Text
  | unreachable _ as => as
  | refused _ _ _ as => as
  | unreadable _ as => as
  | unexpectedList _ => []
  | unexpectedDetails _ => []

end FetchError

/-- What keeps a caller from getting its answer: an error it is told about in its own terms, or a
fault that passes through as it came. -/
inductive Trouble where
  | fetch (e : FetchError)
  | fault (f : Fault) (text : Text)
deriving DecidableEq, Repr

def Trouble.ofFault (e : Fault × Text) : Trouble := .fault e.1 e.2

/-- What was done for an answer, the answer, and the network it leaves behind. -/
structure Reply (α : Type) where
  events : List Event
  result : Except Trouble α
  network : Network

/-- An answer with a status of 400 or more is objected to by its first line. -/
def Daemon.plainObjection (_ : Request) (status : Int) (reason : Text) : Option Text :=
  if 400 ≤ status then some (Text.ofInt status ++ [' '] ++ reason) else none

/-- A clock counts no time backwards, and none of more than 2^63 billionths of a second. -/
def Daemon.clockFault (seconds : Float) : Option (Fault × Text) :=
  let ticks := seconds * 1000000000
  if seconds.isNaN then some (.valueError, "Invalid value NaN (not a number)".toList)
  else if -9223372036854775808 ≤ ticks ∧ ticks < 9223372036854775808 then
    if seconds < 0 then some (.valueError, "sleep length must be non-negative".toList) else none
  else some (.overflowError, "timestamp out of range for platform time_t".toList)

/-- Where the daemon is, and how patient its callers are. -/
structure Daemon where
  host : Text
  retries : Int := 2
  backoff : Float := 0.5
  timeout : Timeout := {}
  /-- What is objected to in an answer of this status and reason, if anything. -/
  objection : Request → Int → Text → Option Text := Daemon.plainObjection
  /-- What goes wrong with a pause of so many seconds, if anything. -/
  pauseFault : Float → Option (Fault × Text) := fun _ => none

namespace Daemon

def attemptLine (f : Fault) (text : Text) : Text := f.label ++ ": ".toList ++ text

/-- What one outcome decides: to try again, or the result. -/
inductive Verdict where
  | again (line : Text)
  | done (result : Except Trouble Json)

/-- The handler of an answer that is objected to asks it for its status. If there is no answer, then
that goes wrong. -/
def answerless : Fault × Text :=
  (.unboundLocal,
    "cannot access local variable 'r' where it is not associated with a value".toList)

def verdict (d : Daemon) (r : Request) : Outcome → Verdict
  | .failed f text =>
    match f.family with
    | .transient => .again (attemptLine f text)
    | .status => .done (.error (.ofFault answerless))
    | .badValue => .done (.error (.fetch (.unreadable r.url [text])))
    | .other => .done (.error (.fault f text))
  | .answered status reason body =>
    match d.objection r status reason with
    | some line => .done (.error (.fetch (.refused status reason r.url [line])))
    | none =>
      match body with
      | .json v => .done (.ok v)
      | .unreadable why => .done (.error (.fetch (.unreadable r.url [why])))

def retryNote (line : Text) (pause : Float) : Event :=
  .logged Level.notice ("DockerDaemon._get_json(): ".toList ++ line ++ ". Retrying in ".toList ++
    Tenths.shown pause ++ "s…".toList)

def giveUpNote (url : Text) (attempts : Int) : Event :=
  .logged Level.error ("DockerDaemon._get_json(): giving up on ".toList ++ url ++
    " after ".toList ++ Text.ofInt attempts ++ " attempts".toList)

/-- Up to `left` more attempts; `lines` tells of the failed ones so far. A pause that cannot be made
is the end of them. -/
def attempt (d : Daemon) (r : Request) : Nat → Float → List Text → Network → Reply Json
  | 0, _, lines, net =>
    ⟨[giveUpNote r.url (d.retries + 1)], .error (.fetch (.unreachable d.host lines)), net⟩
  | left + 1, pause, lines, net =>
    let (outcome, net) := net.respond r
    match d.verdict r outcome with
    | .done result => ⟨[.request r], result, net⟩
    | .again line =>
      let rest := attempt d r left (pause * 2) (lines ++ [line]) net
      if left = 0 then { rest with events := .request r :: rest.events }
      else
        let before := [.request r, retryNote line pause, .pause pause]
        match d.pauseFault pause with
        | some e => ⟨before, .error (.ofFault e), net⟩
        | none => { rest with events := before ++ rest.events }

def fetch (d : Daemon) (path : Text) (params : Option (List (Text × Text))) (net : Network) :
    Reply Json :=
  attempt d ⟨d.host ++ path, params, d.timeout⟩ (d.retries + 1).toNat d.backoff [] net

/-- All containers are asked for, unless only running ones are wanted. -/
def params (selections : List Selection) : List (Text × Text) :=
  ("all".toList, "1".toList) ::
    if Selection.running ∈ selections ∧ Selection.unfiltered ∉ selections then
      [("filters".toList, "\x7b\"status\": [\"running\"]\x7d".toList)]
    else []

def shownParams (ps : List (Text × Text)) : Text :=
  ['\x7b'] ++ List.intercalate ", ".toList (ps.map fun p => p.1.quoted ++ ": ".toList ++ p.2.quoted)
    ++ ['\x7d']

/-- The containers in the daemon's own order; the sort mode is only mentioned in the log. -/
def list (d : Daemon) (selections : List Selection) (mode : SortMode) (net : Network) :
    Reply (List Summary) :=
  let ps := params selections
  let asked := Event.logged Level.debug ("DockerDaemon.containers(): params=".toList ++
    shownParams ps ++ ", sort hint=".toList ++ mode.label)
  let reply := d.fetch "/containers/json".toList (some ps) net
  let events := asked :: reply.events
  match reply.result with
  | .error t => ⟨events, .error t, reply.network⟩
  | .ok (.arr items) =>
    match Summary.readAll items with
    | .error e => ⟨events, .error (.ofFault e), reply.network⟩
    | .ok summaries =>
      let got := Event.logged Level.info ("DockerDaemon.containers(): ".toList ++
        Text.ofNat summaries.length ++ " containers from ".toList ++ d.host)
      ⟨events ++ [got], .ok summaries, reply.network⟩
  | .ok _ => ⟨events, .error (.fetch (.unexpectedList d.host)), reply.network⟩

/-- The details of one container: an object, whatever its members are. -/
def inspect (d : Daemon) (id : Text) (net : Network) : Reply Json :=
  let reply := d.fetch ("/containers/".toList ++ id ++ "/json".toList) none net
  match reply.result with
  | .ok (.obj fields) => { reply with result := .ok (.obj fields) }
  | .ok _ => { reply with result := .error (.fetch (.unexpectedDetails id)) }
  | .error _ => reply

end Daemon

end DockConsole
